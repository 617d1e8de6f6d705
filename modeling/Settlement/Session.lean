import Settlement.Number.Binary64
import Settlement.Path
import Settlement.Value

/-!
What a command does with the world around it, as data: a session is a tree of files read, requests
posted, pauses, looks at the clock and lines printed, with a branch for every answer. A session runs
against surroundings that give the answers; its progress records what it has done.
-/

namespace Settlement

structure Request where
  id : Nat
  method : String
  params : List Value

inductive Exchange where
  | response (status : Nat) (body : String)
  | transportFailed (message : String)
  | badEndpoint (reason message : String)
  | unusable (reason message : String)
  deriving DecidableEq

inductive Channel where
  | out
  | err
  deriving DecidableEq

inductive Session (α : Type) where
  | done (a : α)
  | read (path : String) (next : FileState → Session α)
  | post (url : String) (request : Request) (next : Exchange → Session α)
  | sleep (seconds : Binary64) (next : Session α)
  | clock (next : Binary64 → Session α)
  | print (channel : Channel) (line : String) (next : Session α)

namespace Session

def bind {α β : Type} : Session α → (α → Session β) → Session β
  | .done a, f => f a
  | .read path next, f => .read path fun x => (next x).bind f
  | .post url request next, f => .post url request fun x => (next x).bind f
  | .sleep seconds next, f => .sleep seconds (next.bind f)
  | .clock next, f => .clock fun t => (next t).bind f
  | .print channel line next, f => .print channel line (next.bind f)

instance : Monad Session where
  pure := .done
  bind := Session.bind

inductive Event where
  | posted (url : String) (request : Request)
  | slept (seconds : Binary64)
  | printed (channel : Channel) (line : String)

/-- Answers to all that a session may ask. Files do not change; the remote side may. -/
structure Surroundings (σ : Type) where
  files : String → FileState
  answer : σ → Request → Exchange × σ

structure Progress (σ : Type) where
  remote : σ
  time : Binary64 := Binary64.zero
  past : List Event := []

def Progress.record {σ : Type} (p : Progress σ) (e : Event) : Progress σ :=
  { p with past := e :: p.past }

def Progress.events {σ : Type} (p : Progress σ) : List Event :=
  p.past.reverse

def Progress.requests {σ : Type} (p : Progress σ) : List Request :=
  p.events.filterMap fun
    | .posted _ r => some r
    | _ => none

def Progress.pauses {σ : Type} (p : Progress σ) : List Binary64 :=
  p.events.filterMap fun
    | .slept seconds => some seconds
    | _ => none

def Progress.lines {σ : Type} (p : Progress σ) (channel : Channel) : List String :=
  p.events.filterMap fun
    | .printed c line => if c = channel then some line else none
    | _ => none

def run {σ α : Type} (around : Surroundings σ) : Session α → Progress σ → α × Progress σ
  | .done a, p => (a, p)
  | .read path next, p => run around (next (around.files path)) p
  | .post url request next, p =>
    let (x, remote) := around.answer p.remote request
    run around (next x) { p.record (.posted url request) with remote }
  | .sleep seconds next, p =>
    run around next { p.record (.slept seconds) with time := p.time.add seconds }
  | .clock next, p => run around (next p.time) p
  | .print channel line next, p => run around next (p.record (.printed channel line))

theorem run_bind {σ α β : Type} (around : Surroundings σ) (s : Session α) (f : α → Session β)
    (p : Progress σ) :
    run around (s.bind f) p = run around (f (run around s p).1) (run around s p).2 := by
  induction s generalizing p with
  | done a => rfl
  | read path next ih => exact ih _ _
  | post url request next ih => exact ih _ _
  | sleep seconds next ih => exact ih _
  | clock next ih => exact ih _ _
  | print channel line next ih => exact ih _

end Session

def readFile (path : String) : Session FileState :=
  .read path .done

def postRequest (url : String) (request : Request) : Session Exchange :=
  .post url request .done

inductive PauseFault where
  | notANumber
  | negative
  | tooLong
  deriving DecidableEq

def PauseFault.message : PauseFault → String
  | .notANumber => "Invalid value NaN (not a number)"
  | .negative => "sleep length must be non-negative"
  | .tooLong => "timestamp too large to convert to C _PyTime_t"

def awayFromZero (num : Int) (den : Nat) : Int :=
  let n : Int := (num.natAbs + den - 1) / den
  if num < 0 then -n else n

def pauseFault? (seconds : Binary64) : Option PauseFault :=
  -- pauses are counted in nanoseconds of 64 bits
  if seconds = .nan then some .notANumber
  else match (seconds.mul (.ofInt 1000000000)).toRatio? with
    | none => some .tooLong
    | some (a, b) =>
      let n := awayFromZero a b
      if n < -Nat.pow 2 63 ∨ Nat.pow 2 63 ≤ n then some .tooLong
      else if n < 0 then some .negative
      else none

def pause (seconds : Binary64) : Session (Except PauseFault Unit) :=
  match pauseFault? seconds with
  | some f => .done (.error f)
  | none => .sleep seconds (.done (.ok ()))

def currentTime : Session Binary64 :=
  .clock .done

def printLine (line : String) : Session Unit :=
  .print .out line (.done ())

def printError (line : String) : Session Unit :=
  .print .err line (.done ())

end Settlement
