/-
Parsers over a list of tokens.

A parser moves a `Cursor` over the tokens. Its `Run` has a result or an error, the cursor it leaves behind in either
case, and the remarks that it made on the way. Parsers are chained as a monad in which the first error ends the chain.

- `advance`, `expect`, `require`, `skip`, `optionalText` and `requireText` look at the next token and step over it.
- `deeper p` runs `p` one level down and comes back up whether it succeeds or fails.
-/
import TextGrammar.Parser.Error

namespace TextGrammar

/-- a place in a list of tokens: its index, the tokens ahead, and how many constructs are open around it -/
structure Cursor where
  index : Nat
  ahead : List Token
  depth : Nat
  deriving DecidableEq

/-- the place in front of a whole list -/
def Cursor.start (ts : List Token) : Cursor := ⟨0, ts, 0⟩

/-- the place one token on; behind the last token the index goes up as well -/
def Cursor.next (c : Cursor) : Cursor := ⟨c.index + 1, c.ahead.tail, c.depth⟩

/-- what a parser does at a place -/
structure Run (α : Type) where
  result : Except ParseError α
  cursor : Cursor
  remarks : List Remark

/-- a parser is run at a place -/
def Parser (α : Type) : Type := Cursor → Run α

namespace Parser

variable {α β : Type}

/-! ## Chaining -/

/-- nothing but a result -/
protected def pure (a : α) : Parser α := fun c => ⟨.ok a, c, []⟩

/-- one parser after another; the remarks of both are kept in order, and an error of the first is final -/
protected def bind (p : Parser α) (f : α → Parser β) : Parser β := fun c =>
  match p c with
  | ⟨.ok a, c', rs⟩ =>
    let r := f a c'
    ⟨r.result, r.cursor, rs ++ r.remarks⟩
  | ⟨.error e, c', rs⟩ => ⟨.error e, c', rs⟩

/-- a parser with its result changed -/
protected def map (f : α → β) (p : Parser α) : Parser β := fun c =>
  let r := p c
  ⟨r.result.map f, r.cursor, r.remarks⟩

instance : Monad Parser where
  pure := Parser.pure
  bind := Parser.bind
  map := Parser.map

@[simp] theorem pure_apply (a : α) (c : Cursor) : (pure a : Parser α) c = ⟨.ok a, c, []⟩ := rfl

theorem map_apply (f : α → β) (p : Parser α) (c : Cursor) :
    (f <$> p) c = ⟨(p c).result.map f, (p c).cursor, (p c).remarks⟩ := rfl

theorem bind_apply (p : Parser α) (f : α → Parser β) (c : Cursor) :
    (p >>= f) c = match p c with
      | ⟨.ok a, c', rs⟩ => ⟨(f a c').result, (f a c').cursor, rs ++ (f a c').remarks⟩
      | ⟨.error e, c', rs⟩ => ⟨.error e, c', rs⟩ := rfl

theorem bind_apply_ok {p : Parser α} {c c' : Cursor} {a : α} {rs : List Remark} (h : p c = ⟨.ok a, c', rs⟩)
    (f : α → Parser β) :
    (p >>= f) c = ⟨(f a c').result, (f a c').cursor, rs ++ (f a c').remarks⟩ := by
  rw [bind_apply, h]

theorem bind_apply_error {p : Parser α} {c c' : Cursor} {e : ParseError} {rs : List Remark}
    (h : p c = ⟨.error e, c', rs⟩) (f : α → Parser β) : (p >>= f) c = ⟨.error e, c', rs⟩ := by
  rw [bind_apply, h]

instance : LawfulMonad Parser := LawfulMonad.mk' Parser
  (fun p => by
    funext c
    rw [map_apply]
    rcases p c with ⟨_ | _, _, _⟩ <;> rfl)
  (fun a f => by
    funext c
    rw [bind_apply]
    simp)
  (fun p f g => by
    funext c
    simp only [bind_apply]
    rcases p c with ⟨_ | a, c', rs⟩
    · rfl
    · simp only
      rcases f a c' with ⟨_ | b, c'', rs'⟩ <;> simp)
  (fun _ _ => rfl)
  (fun _ _ => rfl)
  (fun _ _ => rfl)
  (fun f p => by
    funext c
    rw [bind_apply, map_apply]
    rcases p c with ⟨_ | _, _, _⟩ <;> simp [Except.map])
  (fun _ _ => rfl)

/-- ends the parse -/
def fail (e : ParseError) : Parser α := fun c => ⟨.error e, c, []⟩

/-- makes a remark -/
def remark (r : Remark) : Parser Unit := fun c => ⟨.ok (), c, [r]⟩

/-! ## Single tokens -/

/-- where the parser is -/
def place : Parser Cursor := fun c => ⟨.ok c, c, []⟩

/-- the next token, if there is one -/
def peek : Parser (Option Token) := fun c => ⟨.ok c.ahead.head?, c, []⟩

/-- steps over one token, or further past the end -/
def advance : Parser Unit := fun c => ⟨.ok (), c.next, []⟩

/-- is the next token of the given kind? -/
def nextIs (k : Kind) : Parser Bool := do
  return (← peek).any (·.kind = k)

/-- steps over a token of the given kind, which is due here -/
def expect (k : Kind) : Parser Unit := do
  match ← peek with
  | none => fail .unexpectedEnd
  | some t => if t.kind = k then advance else fail (.mismatch k t)

/-- steps over a token of the given kind, which is due here in words of its own -/
def require (k : Kind) (due : Expectation) : Parser Unit := do
  if ← nextIs k then advance else fail (.missing due (← peek))

/-- steps over a token of the given kind if there is one -/
def skip (k : Kind) : Parser Unit := do
  if ← nextIs k then advance

/-- steps over a text if there is one -/
def optionalText : Parser (Option String) := do
  match ← peek with
  | some (.text s) => advance; return some s
  | _ => return none

/-- steps over a text, which is due here -/
def requireText (due : Expectation) : Parser String := do
  match ← optionalText with
  | some s => return s
  | none => fail (.missing due (← peek))

/-! ## Nesting -/

/-- one level down, and up again -/
def deeper (p : Parser α) : Parser α := fun c =>
  let r := p { c with depth := c.depth + 1 }
  { r with cursor := { r.cursor with depth := r.cursor.depth - 1 } }

end Parser

end TextGrammar
