import Settlement.Json.Reader

/-!
Documents of a fixed shape, read in one pass over the bytes of exact JSON: the first fault met, be it
of syntax or of type, is the one reported.
-/

namespace Settlement.Json

inductive TypedError where
  | malformed
  | mistyped
  | encoding
  deriving DecidableEq

abbrev Reader (α : Type) := Bytes → Except TypedError (α × Bytes)

def token : Reader Token := fun bs =>
  match scan .exact (skipSpace bs) with
  | some r => .ok r
  | none => .error .malformed

def utf8Checked (bs : Bytes) : Except TypedError String :=
  match String.fromUTF8? ⟨bs.toArray⟩ with
  | some s => .ok s
  | none => .error .encoding

def integer : Reader Int := fun bs => do
  match ← token bs with
  | (.integer count n, rest) => if count > Integer.maxDigits then throw .mistyped else pure (n, rest)
  | _ => throw .mistyped

def text : Reader String := fun bs => do
  match ← token bs with
  | (.text s, rest) => pure (← utf8Checked s, rest)
  | _ => throw .mistyped

def integerOrText : Reader (Int ⊕ String) := fun bs => do
  match ← token bs with
  | (.integer count n, rest) =>
    if count > Integer.maxDigits then throw .mistyped else pure (.inl n, rest)
  | (.text s, rest) => pure (.inr (← utf8Checked s), rest)
  | _ => throw .mistyped

def optional {α : Type} (item : Reader α) : Reader (Option α) := fun bs =>
  match skipSpace bs with
  | 110 :: _ => do
    let (_, rest) ← token bs
    pure (none, rest)
  | _ => do
    let (a, rest) ← item bs
    pure (some a, rest)

def members {σ : Type} (close : UInt8) (step : σ → Reader σ) : Nat → Bool → σ → Reader σ
  | 0, _, _, _ => .error .malformed
  | fuel + 1, first, s, bs =>
    match skipSpace bs with
    | [] => .error .malformed
    | b :: rest =>
      if b = close then .ok (s, rest)
      else if first then do
        let (s, rest) ← step s (b :: rest)
        members close step fuel false s rest
      else if b = 44 then
        match skipSpace rest with
        | [] => .error .malformed
        | c :: more =>
          if c = close then .error .malformed
          else do
            let (s, rest) ← step s (c :: more)
            members close step fuel false s rest
      else .error .malformed

def array {α : Type} (item : Reader α) : Reader (List α) := fun bs => do
  match ← token bs with
  | (.arrayStart, rest) =>
    let (acc, rest) ← members 93 (fun acc bs => do
      let (a, rest) ← item bs
      pure (a :: acc, rest)) (rest.length + 1) true [] rest
    pure (acc.reverse, rest)
  | _ => throw .mistyped

def name : Reader Bytes := fun bs =>
  match bs with
  | 34 :: _ => do
    match ← token bs with
    | (.text s, rest) =>
      match nextIs 58 rest with
      | some rest => pure (s, rest)
      | none => throw .malformed
    | _ => throw .malformed
  | _ => .error .malformed

def skip : Nat → Reader Unit
  | 0, _ => .error .malformed
  | fuel + 1, bs => do
    match ← token bs with
    | (.arrayStart, rest) => members 93 (fun _ bs => skip fuel bs) (rest.length + 1) true () rest
    | (.objectStart, rest) =>
      members 125 (fun _ bs => do
        let (_, rest) ← name bs
        skip fuel rest) (rest.length + 1) true () rest
    | (_, rest) => pure ((), rest)

inductive Unknown where
  | refused
  | skipped

def object {σ : Type} (unknown : Unknown) (fields : List (String × (σ → Reader σ))) (start : σ) :
    Reader σ := fun bs => do
  match ← token bs with
  | (.objectStart, rest) =>
    members 125 (fun s bs => do
      let (key, rest) ← name bs
      match fields.find? (fun f => Bytes.ofString f.1 == key) with
      | some (_, read) => read s rest
      | none =>
        match unknown with
        | .refused => throw .mistyped
        | .skipped =>
          let (_, rest) ← skip rest.length rest
          pure (s, rest)) (rest.length + 1) true start rest
  | _ => throw .mistyped

def field {σ α : Type} (item : Reader α) (put : σ → α → σ) : σ → Reader σ := fun s bs => do
  let (a, rest) ← item bs
  pure (put s a, rest)

def decode {α : Type} (read : Reader α) (bs : Bytes) : Except TypedError α := do
  let (a, rest) ← read bs
  if (skipSpace rest).isEmpty then pure a else throw .malformed

end Settlement.Json
