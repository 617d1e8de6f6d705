import Mathlib
import Settlement.Proofs.Except
import Settlement.Proofs.Json.Limits
import Settlement.Proofs.Number.Binary64
import Settlement.Proofs.Session
import Settlement.Rpc.Client

/-!
What remote calls post: each call one request, as often as it takes, and its result is in the answer to the last post.
-/

namespace Settlement

open Session

namespace Session.Move

variable {m : Move} {method method' : String}

def Calls (method : String) (m : Move) : Prop :=
  ∃ url r x, m = .asked url r x ∧ r.method = method

def Within (method : String) (m : Move) : Prop :=
  m.Calls method ∨ ∃ t, m = .slept t

theorem Within.method_eq (h : m.Within method) (hcalls : m.Calls method') : method' = method := by
  obtain ⟨url, r, x, rfl, rfl⟩ := hcalls
  obtain ⟨url', r', x', heq, rfl⟩ | ⟨t, heq⟩ := h
  · cases heq
    rfl
  · cases heq

theorem Within.ne_printed (h : m.Within method) (channel : Channel) (line : String) : m ≠ .printed channel line := by
  rintro rfl
  obtain ⟨url', r', x', heq, rfl⟩ | ⟨t, heq⟩ := h <;> cases heq

end Session.Move

namespace Integer

theorem read_nonneg {base : ℕ} {shown : String} {cs : List Char} {n : ℤ} (h : read base shown ('0' :: cs) = .ok n) :
    0 ≤ n := by
  have hspace : Text.isAsciiSpace '0' = false := by decide
  have hsign : splitSign ('0' :: cs) = (false, '0' :: cs) := rfl
  rw [read, List.dropWhile_cons_of_neg (by simp [hspace])] at h
  simp only [hsign, Bool.false_eq_true, ↓reduceIte] at h
  split_ifs at h
  cases h
  exact Int.natCast_nonneg _

theorem parse_nonneg {base : ℕ} {text : String} {cs : List Char} {n : ℤ} (htext : text.toList = '0' :: cs)
    (h : parse base text = .ok n) : 0 ≤ n := by
  have hzero : normalize '0' = '0' := by decide
  rw [parse, htext, List.map_cons, hzero] at h
  exact read_nonneg h

theorem foldl_extend (bs : Bytes) (n k : ℕ) (ns : List ℕ) :
    ∃ m ms, bs.foldl Text.codePoints.extend (n :: (ns ++ [k])) = m :: (ms ++ [k]) := by
  -- by induction on the bytes: they change what comes behind the first two code points, or the second
  induction bs generalizing n ns with
  | nil => exact ⟨n, ns, rfl⟩
  | cons b bs ih =>
    rw [List.foldl_cons, Text.codePoints.extend]
    split_ifs
    · exact ih _ ns
    · exact ih _ (n :: ns)

theorem parseHalves_nonneg {base : ℕ} {bs : Bytes} {n : ℤ} (h : parseHalves base (0x30 :: 0x78 :: bs) = .ok n) :
    0 ≤ n := by
  have hzero : normalize (Char.ofNat 0x30) = '0' := by decide
  obtain ⟨m, ms, hpoints⟩ := foldl_extend bs 0x78 0x30 []
  have hcodes : Text.codePoints (0x30 :: 0x78 :: bs) = 0x30 :: (m :: ms).reverse := by
    rw [Text.codePoints]
    change (bs.foldl Text.codePoints.extend [0x78, 0x30]).reverse = _
    rw [show [0x78, 0x30] = 0x78 :: ([] ++ [0x30]) from rfl, hpoints]
    simp
  rw [parseHalves, hcodes, List.map_cons, hzero] at h
  exact read_nonneg h

end Integer

namespace Rpc

variable {files : String → FileState} {c : Client} {ms : List Move} {url method : String} {params : List Value}

def Repeats (url : String) (r : Request) (ms : List Move) : Prop :=
  ∀ m ∈ ms, (∃ x, m = .asked url r x) ∨ ∃ t, m = .slept t

theorem Repeats.append {r : Request} {ms ms' : List Move} (h : Repeats url r ms) (h' : Repeats url r ms') :
    Repeats url r (ms ++ ms') :=
  List.forall_mem_append.mpr ⟨h, h'⟩

def pauseLimit : ℕ := 1024

theorem pauseAfter?_eq_none_iff {pauses : ℕ} : c.pauseAfter? pauses = none ↔ pauseLimit ≤ pauses := by
  rw [Client.pauseAfter?, Option.map_eq_none_iff, Binary64.ofInt?_two_pow, pauseLimit]
  split_ifs with h <;> simp <;> omega

def Client.nextPause (c : Client) (pauses : ℕ) : Except Error Binary64 :=
  match c.pauseAfter? pauses with
  | none => .error .overflow
  | some seconds =>
    match pauseFault? seconds with
    | none => .ok seconds
    | some f => .error (.pause f)

theorem nextPause_of_pauseAfter {pauses : ℕ} {seconds : Binary64} (h : c.pauseAfter? pauses = some seconds)
    (hseconds : pauseFault? seconds = none) : c.nextPause pauses = .ok seconds := by
  rw [Client.nextPause, h]
  simp only [hseconds]

theorem exists_nextPause (url : String) (k : ℕ) (hk : (k : ℤ) < 2) :
    ∃ seconds, Client.nextPause { url } k = .ok seconds := by
  have hquarter : (Binary64.ofInt? (Nat.pow 2 0)).map (Binary64.ofRatio false 1 4).mul = some (.ofRatio false 1 4) ∧
      pauseFault? (.ofRatio false 1 4) = none := by decide
  have hhalf : (Binary64.ofInt? (Nat.pow 2 1)).map (Binary64.ofRatio false 1 4).mul = some (.ofRatio false 1 2) ∧
      pauseFault? (.ofRatio false 1 2) = none := by decide
  obtain rfl | rfl : k = 0 ∨ k = 1 := by omega
  · exact ⟨_, nextPause_of_pauseAfter hquarter.1 hquarter.2⟩
  · exact ⟨_, nextPause_of_pauseAfter hhalf.1 hhalf.2⟩

theorem nextPause_of_limit {pauses : ℕ} (h : pauseLimit ≤ pauses) : c.nextPause pauses = .error .overflow := by
  rw [Client.nextPause, pauseAfter?_eq_none_iff.mpr h]

def Error.IsRemote : Error → Prop
  | .transport .. => True
  | .badEndpoint .. => True
  | .unusable .. => True
  | .notJson .. => True
  | .malformed .. => True
  | .reported .. => True
  | _ => False

theorem not_isRemote_of_nextPause {pauses : ℕ} {e : Error} (h : c.nextPause pauses = .error e) : ¬e.IsRemote := by
  unfold Client.nextPause at h
  split at h
  · cases h
    exact id
  · split at h
    · cases h
    · cases h
      exact id

theorem isMarked_iff {bs : Bytes} : Client.isMarked bs = true ↔ ∃ rest, bs = 0x30 :: 0x78 :: rest := by
  have hmark : Bytes.ofString "0x" = [0x30, 0x78] := Bytes.ofString_eq _
  rw [Client.isMarked, hmark, List.isPrefixOf_iff_prefix]
  exact ⟨fun ⟨rest, h⟩ => ⟨rest, h.symm⟩, fun ⟨rest, h⟩ => ⟨rest, h.symm⟩⟩

inductive Numeral : Value → Except Integer.LiteralError ℤ → Prop
  | text (s : String) : Numeral (.text s) (Integer.parse 16 s)
  | halves (bs : Bytes) : Numeral (.halves bs) (Integer.parseHalves 16 bs)

inductive Marked : Value → Prop
  | text {s : String} (h : s.startsWith "0x" = true) : Marked (.text s)
  | halves {bs : Bytes} (h : Client.isMarked bs = true) : Marked (.halves bs)

theorem quantity_eq_error {v : Value} {e : Error} (h : Client.quantity method v = .error e) :
    e = .notQuantity method v ∨ ∃ e', e = .quantity e' ∧ Marked v ∧ Numeral v (.error e') := by
  unfold Client.quantity at h
  split at h
  · split at h
    · rename_i s hs
      obtain ⟨e', he', rfl⟩ := Except.mapError_eq_error h
      exact .inr ⟨e', rfl, .text hs, he' ▸ .text s⟩
    · cases h
      exact .inl rfl
  · split at h
    · rename_i bs hbs
      obtain ⟨e', he', rfl⟩ := Except.mapError_eq_error h
      exact .inr ⟨e', rfl, .halves hbs, he' ▸ .halves bs⟩
    · cases h
      exact .inl rfl
  · cases h
    exact .inl rfl

theorem data_eq_error {v : Value} {e : Error} (h : Client.data method v = .error e) :
    e = .notData method v ∨ e = .digits ∧ Marked v ∧
      ∀ s, v = .text s → ∃ cs, s.toList = '0' :: 'x' :: cs ∧ Hex.decodeSpaced? cs = none := by
  unfold Client.data at h
  split at h
  · rename_i s
    split at h
    · rename_i cs hs
      split at h
      · cases h
      · rename_i hcs
        cases h
        refine .inr ⟨rfl, .text (String.startsWith_string_iff.mpr ?_), fun s' hs' => ?_⟩
        · exact ⟨cs, hs.symm⟩
        · cases hs'
          exact ⟨cs, hs, hcs⟩
    · cases h
      exact .inl rfl
  · rename_i bs
    cases h
    by_cases hbs : Client.isMarked bs = true
    · rw [if_pos hbs]
      exact .inr ⟨rfl, .halves hbs, nofun⟩
    · rw [if_neg hbs]
      exact .inl rfl
  · cases h
    exact .inl rfl

theorem quantity_nonneg {v : Value} {n : ℤ} (h : Client.quantity method v = .ok n) : 0 ≤ n := by
  unfold Client.quantity at h
  split at h
  · split at h
    · rename_i s hs
      obtain ⟨cs, hcs⟩ := String.startsWith_string_iff.mp hs
      exact Integer.parse_nonneg hcs.symm (Except.mapError_eq_ok.mp h)
    · cases h
  · split at h
    · rename_i bs hbs
      obtain ⟨rest, rfl⟩ := isMarked_iff.mp hbs
      exact Integer.parseHalves_nonneg (Except.mapError_eq_ok.mp h)
    · cases h
  · cases h

inductive IsHash : Value → Prop
  | text (s : String) : IsHash (.text s)
  | halves (bs : Bytes) : IsHash (.halves bs)

def readHash (v : Value) : Except Error Value :=
  match v with
  | .text _ => .ok v
  | .halves _ => .ok v
  | _ => .error (.notHash "eth_sendRawTransaction" v)

theorem readHash_eq_ok {v hash : Value} : readHash v = .ok hash ↔ v = hash ∧ IsHash hash := by
  constructor
  · intro h
    cases v with
    | text s => exact ⟨Except.ok.inj h, Except.ok.inj h ▸ .text s⟩
    | halves bs => exact ⟨Except.ok.inj h, Except.ok.inj h ▸ .halves bs⟩
    | _ => cases h
  · rintro ⟨rfl, ⟨s⟩ | ⟨bs⟩⟩ <;> rfl

theorem readHash_eq_error {v : Value} {e : Error} (h : readHash v = .error e) :
    e = .notHash "eth_sendRawTransaction" v := by
  cases v <;> cases h <;> rfl

variable [Platform]

def Answers (url : String) (r : Request) (ms : List Move) (result : Except Error Value) : Prop :=
  ∃ before x, ms = before ++ [.asked url r x] ∧ Outcome.ofExchange url r.method x = .final result

theorem Answers.append {r : Request} {result : Except Error Value} (h : Answers url r ms result) (front : List Move) :
    Answers url r (front ++ ms) result := by
  obtain ⟨before, x, rfl, hx⟩ := h
  exact ⟨front ++ before, x, (List.append_assoc ..).symm, hx⟩

inductive Client.Stops (c : Client) (params : List Value) : Error → Prop
  | unwritable {e : Json.WriteError} (h : Json.checkParams 1 params = .error e) : Stops c params (.unwritable e)
  | pause {k : ℕ} {e : Error} (hk : k < c.maxRetries) (h : c.nextPause k = .error e) : Stops c params e

theorem attempt_unwritable {r : Request} {e : Json.WriteError} (left made : ℕ) (last : Option String)
    (h : Json.checkParams 1 r.params = .error e) :
    c.attempt r (left + 1) made last = .done (.error (.unwritable e)) := by
  rw [Client.attempt, Client.checkRequest, h]
  rfl

theorem attempt_succ {r : Request} (left made : ℕ) (last : Option String) (h : Json.checkParams 1 r.params = .ok ()) :
    c.attempt r (left + 1) made last = .post c.url r fun x => match Outcome.ofExchange c.url r.method x with
      | .final result => .done result
      | .again problem =>
        if left = 0 then c.attempt r left (made + 1) (some problem)
        else match c.nextPause made with
          | .ok seconds => .sleep seconds (c.attempt r left (made + 1) (some problem))
          | .error e => .done (.error e) := by
  rw [Client.attempt, Client.checkRequest, h]
  refine congrArg (Session.post c.url r) (funext fun x => ?_)
  simp only [Session.bind]
  cases Outcome.ofExchange c.url r.method x with
  | final result => rfl
  | again problem =>
    simp only [Client.nextPause]
    split_ifs
    · rfl
    · cases c.pauseAfter? made with
      | none => rfl
      | some seconds =>
        simp only [Settlement.pause]
        cases pauseFault? seconds <;> rfl

theorem goes_attempt {r : Request} {left made : ℕ} {last : Option String} {result : Except Error Value}
    (h : Goes files (c.attempt r left made last) ms result) (hleft : (made + left : ℤ) ≤ c.maxRetries + 1) :
    Repeats c.url r ms ∧ (Answers c.url r ms result ∨ (∃ problem, result = .error (.transport r.method problem)) ∨
      ∃ e, result = .error e ∧ c.Stops r.params e) := by
  -- by induction on the attempts that are left: all of them are the same post, up to one with a final answer or one
  -- behind which no pause can be made
  induction left generalizing made last ms with
  | zero =>
    obtain ⟨rfl, rfl⟩ := goes_done h
    exact ⟨by simp [Repeats], .inr (.inl ⟨last, rfl⟩)⟩
  | succ left ih =>
    cases hparams : Json.checkParams 1 r.params with
    | error e =>
      rw [attempt_unwritable left made last hparams] at h
      obtain ⟨rfl, rfl⟩ := goes_done h
      exact ⟨by simp [Repeats], .inr (.inr ⟨_, rfl, .unwritable hparams⟩)⟩
    | ok u =>
      rw [attempt_succ left made last hparams] at h
      cases h with
      | @post _ _ _ ms _ x h =>
        have hone : Repeats c.url r [.asked c.url r x] := by simp [Repeats]
        cases hx : Outcome.ofExchange c.url r.method x with
        | final result' =>
          simp only [hx] at h
          obtain ⟨rfl, rfl⟩ := goes_done h
          exact ⟨hone, .inl ⟨[], x, rfl, hx⟩⟩
        | again problem =>
          have hnext : ((made + 1 : ℕ) + left : ℤ) ≤ c.maxRetries + 1 := by omega
          simp only [hx] at h
          split at h
          · obtain ⟨hrepeats, hresult⟩ := ih h hnext
            exact ⟨hone.append hrepeats, hresult.imp_left fun ha => ha.append [_]⟩
          · rename_i hlast
            split at h
            · rename_i seconds _
              cases h with
              | sleep h =>
                obtain ⟨hrepeats, hresult⟩ := ih h hnext
                have hpause : Repeats c.url r [.slept seconds] := by simp [Repeats]
                exact ⟨hone.append (hpause.append hrepeats), hresult.imp_left fun ha => ha.append [_, _]⟩
            · rename_i e he
              obtain ⟨rfl, rfl⟩ := goes_done h
              exact ⟨hone, .inr (.inr ⟨e, rfl, .pause (by omega) he⟩)⟩

/-- What a call without its number posts, and its result: it is the final answer, unless no attempt had one or the call
was stopped. -/
def Posts (c : Client) (method : String) (params : List Value) (ms : List Move) (result : Except Error Value) : Prop :=
  ∃ id, Repeats c.url ⟨id, method, params⟩ ms ∧
    (Answers c.url ⟨id, method, params⟩ ms result ∨ (∃ problem, result = .error (.transport method problem)) ∨
      ∃ e, result = .error e ∧ c.Stops params e)

def Answered (url method : String) (params : List Value) (ms : List Move) (v : Value) : Prop :=
  ∃ id x, .asked url ⟨id, method, params⟩ x ∈ ms ∧ Outcome.ofExchange url method x = .final (.ok v)

def AnsweredDeep (url method : String) (params : List Value) (ms : List Move) : Prop :=
  ∃ id status body, .asked url ⟨id, method, params⟩ (.response status body) ∈ ms ∧
    Platform.jsonDepth < Json.openings (Bytes.ofString (dropByteOrderMark body))

theorem Answered.mono {ms' : List Move} {v : Value} (h : Answered url method params ms v) (hsub : ms ⊆ ms') :
    Answered url method params ms' v := by
  obtain ⟨id, x, hmem, hx⟩ := h
  exact ⟨id, x, hsub hmem, hx⟩

theorem AnsweredDeep.mono {ms' : List Move} (h : AnsweredDeep url method params ms) (hsub : ms ⊆ ms') :
    AnsweredDeep url method params ms' := by
  obtain ⟨id, status, body, hmem, hdeep⟩ := h
  exact ⟨id, status, body, hsub hmem, hdeep⟩

theorem isRemote_of_readBody {status : ℕ} {body : String} {e : Error} (h : readBody method status body = .error e) :
    e.IsRemote ∨ e = .tooDeep ∧ Platform.jsonDepth < Json.openings (Bytes.ofString (dropByteOrderMark body)) := by
  unfold readBody at h
  split at h
  · rename_i hparse
    cases h
    exact .inr ⟨rfl, Json.lt_openings_of_parse hparse⟩
  · cases h
    exact .inl trivial
  · unfold readEnvelope at h
    split at h
    · cases h
    · cases h
      exact .inl trivial
    · cases h
      exact .inl trivial
  · cases h
    exact .inl trivial

theorem isRemote_of_final {x : Exchange} {e : Error} (h : Outcome.ofExchange url method x = .final (.error e)) :
    e.IsRemote ∨ e = .tooDeep ∧ ∃ status body, x = .response status body ∧
      Platform.jsonDepth < Json.openings (Bytes.ofString (dropByteOrderMark body)) := by
  cases x with
  | response status body =>
    simp only [Outcome.ofExchange] at h
    split at h
    · cases h
    · exact (isRemote_of_readBody (Outcome.final.inj h)).imp_right fun ⟨he, hdeep⟩ => ⟨he, status, body, rfl, hdeep⟩
  | transportFailed message => cases h
  | badEndpoint reason detail =>
    cases h
    exact .inl trivial
  | unusable reason detail =>
    cases h
    exact .inl trivial

theorem does_request {result : Except Error Value} (h : Does files (c.request method params) ms result) :
    Posts c method params ms result := by
  obtain ⟨n, n', h⟩ := h
  obtain ⟨result', ms₁, ms₂, rfl, hattempt, hdone⟩ :=
    goes_bind (s := c.attempt ⟨n + 1, method, params⟩ c.attempts 0 none) h
  obtain ⟨rfl, heq⟩ := goes_done hdone
  cases heq
  rw [List.append_nil]
  by_cases hattempts : 0 < c.attempts
  · rw [Client.attempts] at hattempts
    exact ⟨n + 1, goes_attempt hattempt (by rw [Client.attempts]; omega)⟩
  · rw [Nat.eq_zero_of_not_pos hattempts] at hattempt
    obtain ⟨rfl, rfl⟩ := goes_done hattempt
    exact ⟨n + 1, by simp [Repeats], .inr (.inl ⟨none, rfl⟩)⟩

theorem run_request {σ : Type} {around : Surroundings σ} {p : Progress σ} {n : ℕ} {x : Exchange} {remote : σ}
    {result : Except Error Value} (hattempts : 0 < c.attempts) (hparams : Json.checkParams 1 params = .ok ())
    (hx : around.answer p.remote ⟨n + 1, method, params⟩ = (x, remote))
    (hfinal : Outcome.ofExchange c.url method x = .final result) :
    Session.run around ((c.request method params).run.run n) p =
      ((result, n + 1), { p.record (.posted c.url ⟨n + 1, method, params⟩) with remote }) := by
  have hrequest : (c.request method params).run.run n =
      (c.attempt ⟨n + 1, method, params⟩ c.attempts 0 none).bind fun r => .done (r, n + 1) := rfl
  rw [hrequest, Session.run_bind, ← Nat.succ_pred_eq_of_pos hattempts, Nat.succ_eq_add_one,
    attempt_succ _ _ _ hparams]
  simp only [Session.run, hx, hfinal]

namespace Posts

variable {result : Except Error Value}

theorem within (h : Posts c method params ms result) : ∀ m ∈ ms, m.Within method := by
  obtain ⟨id, hrepeats, -⟩ := h
  exact fun m hm => (hrepeats m hm).imp_left fun ⟨x, hx⟩ => ⟨c.url, _, x, hx, rfl⟩

theorem answered {v : Value} (h : Posts c method params ms (.ok v)) : Answered c.url method params ms v := by
  obtain ⟨id, -, ⟨before, x, rfl, hx⟩ | ⟨problem, heq⟩ | ⟨e, heq, -⟩⟩ := h
  · exact ⟨id, x, by simp, hx⟩
  · cases heq
  · cases heq

theorem isRemote_or {e : Error} (h : Posts c method params ms (.error e)) :
    e.IsRemote ∨ (e = .tooDeep ∧ AnsweredDeep c.url method params ms) ∨ c.Stops params e := by
  obtain ⟨id, -, ⟨before, x, rfl, hx⟩ | ⟨problem, heq⟩ | ⟨e', heq, hstops⟩⟩ := h
  · obtain hremote | ⟨rfl, status, body, rfl, hdeep⟩ := isRemote_of_final hx
    · exact .inl hremote
    · exact .inr (.inl ⟨rfl, id, status, body, by simp, hdeep⟩)
  · cases heq
    exact .inl trivial
  · cases heq
    exact .inr (.inr hstops)

end Posts

section Reading

variable {α : Type}

theorem does_read {read : Value → Except Error α} {result : Except Error α}
    (h : Does files (do let v ← c.request method params; ExceptT.mk (pure (read v))) ms result) :
    ∃ answer, Posts c method params ms answer ∧ result = answer >>= read := by
  obtain ⟨e, rfl, hcall⟩ | ⟨v, ms₁, ms₂, rfl, hcall, hread⟩ := does_bind h
  · exact ⟨.error e, does_request hcall, rfl⟩
  · obtain ⟨n, n', hread⟩ := hread
    obtain ⟨rfl, heq⟩ := goes_done hread
    exact ⟨.ok v, by simpa using does_request hcall, congrArg Prod.fst heq⟩

theorem does_requestQuantity {result : Except Error ℤ} (h : Does files (c.requestQuantity method params) ms result) :
    ∃ answer, Posts c method params ms answer ∧ result = answer >>= Client.quantity method :=
  does_read h

theorem does_call {contract : String} {input : Bytes} {block : Value} {result : Except Error Bytes}
    (h : Does files (c.call contract input block) ms result) :
    ∃ answer, Posts c "eth_call" [.object [("to", .text contract), ("data", Client.hexData input)], block] ms answer ∧
      result = answer >>= Client.data "eth_call" :=
  does_read h

theorem does_sendRawTransaction {raw : Bytes} {result : Except Error Value}
    (h : Does files (c.sendRawTransaction raw) ms result) :
    ∃ answer, Posts c "eth_sendRawTransaction" [Client.hexData raw] ms answer ∧ result = answer >>= readHash := by
  have hsend : c.sendRawTransaction raw =
      (do let v ← c.request "eth_sendRawTransaction" [Client.hexData raw]; ExceptT.mk (pure (readHash v))) := by
    refine congrArg _ (funext fun v => ?_)
    cases v <;> rfl
  rw [hsend] at h
  exact does_read h

end Reading

def receiptMethod : String := "eth_getTransactionReceipt"

def Polled (url : String) (hash : Value) (ms : List Move) (receipt : Value) : Prop :=
  receipt ≠ .null ∧ Answered url receiptMethod [hash] ms receipt

inductive Unpolled (c : Client) (hash : Value) (interval : Binary64) (ms : List Move) : Error → Prop
  | remote {e : Error} (h : e.IsRemote) : Unpolled c hash interval ms e
  | timedOut : Unpolled c hash interval ms (.timedOut hash)
  | tooDeep (h : AnsweredDeep c.url receiptMethod [hash] ms) : Unpolled c hash interval ms .tooDeep
  | stops {e : Error} (h : c.Stops [hash] e) : Unpolled c hash interval ms e
  | pause {f : PauseFault} (h : pauseFault? interval = some f) : Unpolled c hash interval ms (.pause f)

theorem Polled.mono {hash receipt : Value} {ms ms' : List Move} (h : Polled url hash ms receipt) (hsub : ms ⊆ ms') :
    Polled url hash ms' receipt :=
  ⟨h.1, h.2.mono hsub⟩

theorem Unpolled.mono {hash : Value} {interval : Binary64} {ms ms' : List Move} {e : Error}
    (h : Unpolled c hash interval ms e) (hsub : ms ⊆ ms') : Unpolled c hash interval ms' e := by
  cases h with
  | remote h => exact .remote h
  | timedOut => exact .timedOut
  | tooDeep h => exact .tooDeep (h.mono hsub)
  | stops h => exact .stops h
  | pause h => exact .pause h

theorem Posts.unpolled {hash : Value} {e : Error} (h : Posts c receiptMethod [hash] ms (.error e)) (interval : Binary64) :
    Unpolled c hash interval ms e := by
  obtain hremote | ⟨rfl, hdeep⟩ | hstops := h.isRemote_or
  · exact .remote hremote
  · exact .tooDeep hdeep
  · exact .stops hstops

theorem does_poll {hash : Value} {deadline interval : Binary64} {fuel : ℕ} {result : Except Error Value}
    (h : Does files (c.poll hash deadline interval fuel) ms result) :
    (∀ m ∈ ms, m.Within receiptMethod) ∧ (∀ receipt, result = .ok receipt → Polled c.url hash ms receipt) ∧
      ∀ e, result = .error e → Unpolled c hash interval ms e := by
  -- by induction on the polls that are left
  induction fuel generalizing ms with
  | zero =>
    obtain ⟨rfl, rfl⟩ := does_throw h
    exact ⟨by simp, nofun, fun e he => Except.error.inj he ▸ .timedOut⟩
  | succ fuel ih =>
    rw [Client.poll] at h
    obtain ⟨e, rfl, hcall⟩ | ⟨v, ms₁, ms₂, rfl, hcall, hbehind⟩ := does_bind h
    · have hposts := does_request hcall
      exact ⟨hposts.within, nofun, fun e' he => Except.error.inj he ▸ hposts.unpolled interval⟩
    have hposts := does_request hcall
    have hfirst : ∀ m ∈ ms₁, m.Within receiptMethod := hposts.within
    split at hbehind
    · obtain ⟨now, ms₃, ms₄, rfl, hclock, hwait⟩ := does_bind_lift hbehind
      obtain rfl := goes_currentTime hclock
      split at hwait
      · -- the deadline has passed
        obtain ⟨e, rfl, hthrow⟩ | ⟨u, ms₅, ms₆, rfl, hthrow, -⟩ := does_bind hwait
        · obtain ⟨rfl, heq⟩ := does_throw hthrow
          cases heq
          exact ⟨by simpa using hfirst, nofun, fun e he => Except.error.inj he ▸ .timedOut⟩
        · cases (does_throw hthrow).2
      · obtain ⟨u, ms₅, ms₆, rfl, hpause, hpoll⟩ := does_bind_lift hwait
        obtain ⟨f, hf, rfl, rfl⟩ | ⟨-, rfl, rfl⟩ := goes_pause hpause
        · obtain ⟨rfl, rfl⟩ := does_throw hpoll
          exact ⟨by simpa using hfirst, nofun, fun e he => Except.error.inj he ▸ .pause hf⟩
        · obtain ⟨hwithin, hpolled, hunpolled⟩ := ih hpoll
          have hsub : ms₆ ⊆ ms₁ ++ ([] ++ ([.slept interval] ++ ms₆)) := fun m hm => by simp [hm]
          refine ⟨?_, fun receipt hr => (hpolled receipt hr).mono hsub, fun e he => (hunpolled e he).mono hsub⟩
          simp only [List.nil_append, List.singleton_append, List.forall_mem_append, List.forall_mem_cons]
          exact ⟨hfirst, .inr ⟨interval, rfl⟩, hwithin⟩
    · rename_i hnull
      obtain ⟨rfl, rfl⟩ := does_pure hbehind
      rw [List.append_nil]
      exact ⟨hfirst, fun receipt hr => Except.ok.inj hr ▸ ⟨hnull, hposts.answered⟩, nofun⟩

theorem does_waitForReceipt {hash : Value} {timeout interval : Binary64} {result : Except Error Value}
    (h : Does files (c.waitForReceipt hash timeout interval) ms result) :
    (∀ m ∈ ms, m.Within receiptMethod) ∧ (∀ receipt, result = .ok receipt → Polled c.url hash ms receipt) ∧
      ∀ e, result = .error e → Unpolled c hash interval ms e := by
  obtain ⟨now, ms₁, ms₂, rfl, hclock, hpoll⟩ := does_bind_lift h
  obtain rfl := goes_currentTime hclock
  exact does_poll hpoll

end Rpc

end Settlement
