/-
How parsing fails.

Where a parser fails, its error says something about the cursor that the failure leaves: the token named in the message
is still ahead there. This holds of every error as it arises (`ParseError.Arises.pointsAt`), and nothing that parsers
are put together from moves the cursor behind an error (`pointing`). So it holds of all steps of a session.

A parser has no other way to fail. There are two places where one might expect another: a condition asks for a
membership test, which is refused for some keywords and for an empty right-hand side, and an entry of a tag looks at the
first of its values. `conditionAsking` and `tagEntryAsking` are the two parsers with the refusal as a result of its own,
and that result does not occur (`conditionAsking_eq`, `tagEntryAsking_eq`).

Result:
- `failures_point_at_cursor`: how the failures of a session are worded.
-/
import TextGrammar.Proofs.Sessions

namespace TextGrammar

open TextGrammar.Parser

/-! ## Errors and the tokens ahead -/

/-- what an error says about the tokens ahead of the cursor that the failure leaves, under the limit -/
def ParseError.PointsAt (limit : Nat) (ahead : List Token) : ParseError → Prop
  | .unexpectedEnd => ahead = []
  | .mismatch _ found => ahead.head? = some found
  | .missing _ found => ahead.head? = found
  | .tooDeep n => n = limit
  | .emptyBlock k => k ∈ [Keyword.thenWord, .elseWord, .doWord]
  | .emptyElement | .emptyTagValue | .emptyOperand _ | .emptyMembers => True

theorem ParseError.Arises.pointsAt {At : Cursor → Prop} {c : Cursor} {e : ParseError} (h : e.Arises At c)
    (limit : Nat) : e.PointsAt limit c.ahead := by
  cases e with
  | mismatch due found => exact h.1
  | missing due found =>
    cases due with
    | spaceAfter k => exact h.1
    | _ => exact h
  | tooDeep n => exact h.elim
  | _ => exact h

/-- runs whose error, if there is one, points at the cursor that they leave -/
def pointing (limit : Nat) : RunRelation where
  At _ := True
  other := id
  keeps := keepsAhead_id
  Rel _ r _ := ∀ e, r.result = .error e → e.PointsAt limit r.cursor.ahead
  at_next _ _ := trivial
  pure _ _ := fun _ h => by cases h
  fail h := fun _ he => Except.error.inj he ▸ h.pointsAt limit
  remark _ _ := fun _ h => by cases h
  advance _ h := h
  bind {α β p q f g c} _ hp hf := by
    intro e he
    rcases hpc : p c with ⟨err | a, d, rs⟩
    · rw [bind_apply_error hpc] at he ⊢
      rw [hpc] at hp
      exact hp e (congrArg Except.error (Except.error.inj he))
    · rw [bind_apply_ok hpc] at he ⊢
      exact hf a d trivial ⟨by rw [hpc], by rw [hpc]⟩ e he
  deeper h := h

theorem construct_pointing (limit n : Nat) (k : Construct) :
    (pointing limit).lockstep.InStep (construct limit n k) (construct limit n k) := by
  refine Lockstep.inStep_construct (fun _ => trivial) (fun c e he => ?_) n k
  obtain rfl : ParseError.tooDeep limit = e := Except.error.inj he
  rfl

namespace Session

variable {limit : Nat} {ts : List Token} {c : Cursor}

/-- the error of a command points at the cursor that the command leaves -/
theorem Command.error_pointsAt {command : Command} {e : ParseError} (h : (command.run limit c).result = .error e) :
    e.PointsAt limit (command.run limit c).cursor.ahead := by
  by_cases hadvance : command = .advance
  · subst hadvance
    cases h
  · have constructs (k : Construct) : (pointing limit).lockstep.InStep (outermost limit k) (outermost limit k) :=
      fun c hc => construct_pointing limit _ k c hc
    have strays (t : Token) : (pointing limit).lockstep.InStep (place >>= fun c => remark (.stray t c.index))
        (place >>= fun c => remark (.stray t c.index)) := fun c _ e he => by cases he
    exact Command.inStep_run constructs strays hadvance c trivial e h

/-- a step of a session is a command at the place behind those before it -/
theorem exists_command_of_mem_run {commands : List Command} {r : Run Answer} (h : r ∈ run limit c commands) :
    ∃ (before : List Command) (command : Command), r = command.run limit (cursorAfter limit c before) := by
  induction commands generalizing c with
  | nil => cases h
  | cons command commands ih =>
    rcases List.mem_cons.1 h with rfl | h
    · exact ⟨[], command, rfl⟩
    · obtain ⟨before, last, rfl⟩ := ih h
      exact ⟨command :: before, last, by rw [cursorAfter_cons]⟩

end Session

/-! ## Wordings -/

theorem Text.head?_toList_quoted (s : String) :
    (Text.quoted s).toList.head? = some (Text.quoteOf s.toList) := by
  rw [Text.quoted, String.toList_ofList]
  rfl

/-- only the end is shown as the end: every token is shown between quotes -/
theorem foundText_eq_eof_iff {o : Option Token} : foundText o = "eof" ↔ o = none := by
  cases o with
  | none => exact iff_of_true rfl rfl
  | some t =>
    refine iff_of_false (fun h => ?_) (Option.some_ne_none t)
    have hquote : Text.quoteOf t.rawText.toList = 'e' := by
      have hhead := Text.head?_toList_quoted t.rawText
      rw [show Text.quoted t.rawText = "eof" from h] at hhead
      exact (Option.some.inj hhead).symm
    unfold Text.quoteOf at hquote
    split at hquote <;> exact absurd hquote (by decide)

/-- the wordings of the errors about something that has no content -/
def emptyWordings : List String :=
  ["expected value after ,", "expected some value", "expected rule or text after == in condition",
    "expected rule or text after != in condition", "expected rule after in/not in keyword",
    "'then' must be followed by rule(s)", "'else' must be followed by rule(s)", "'do' must be followed by rule(s)"]

/-- how a failure is worded under a limit, where messages show `shown` for the next token and `atEnd` says that there is
none -/
inductive Wording (limit : Nat) (shown : String) (atEnd : Prop) : String → Prop where
  | missing (due : Expectation) : Wording limit shown atEnd (due.message ++ ", got: " ++ shown)
  | mismatch (due : Kind) :
    Wording limit shown atEnd ("token mismatch expected " ++ Text.quoted due.label ++ ", got: " ++ shown)
  | unexpectedEnd : atEnd → Wording limit shown atEnd "unexpected eof"
  | tooDeep : Wording limit shown atEnd ("maximum nesting depth " ++ Nat.repr limit ++ " exceeded")
  | empty {message : String} : message ∈ emptyWordings → Wording limit shown atEnd message

theorem ParseError.PointsAt.wording {limit : Nat} {ahead : List Token} {e : ParseError} (h : e.PointsAt limit ahead) :
    Wording limit (foundText ahead.head?) (ahead = []) e.message := by
  cases e with
  | unexpectedEnd => exact .unexpectedEnd h
  | mismatch due found =>
    rw [show ahead.head? = some found from h]
    exact .mismatch due
  | missing due found =>
    rw [show ahead.head? = found from h]
    exact .missing due
  | tooDeep n =>
    obtain rfl : n = limit := h
    exact .tooDeep
  | emptyElement | emptyTagValue | emptyMembers => exact .empty (by decide)
  | emptyOperand o => cases o <;> exact .empty (by decide)
  | emptyBlock k =>
    have hk : k ∈ [Keyword.thenWord, .elseWord, .doWord] := h
    simp only [List.mem_cons, List.not_mem_nil, or_false] at hk
    rcases hk with rfl | rfl | rfl <;> exact .empty (by decide)

/-! ## No other failures -/

/-- the relation that a connective of the given kind stands for. A membership test is asked for, and may be refused. -/
def Connective.ask (k : Kind) (rhs : List Node) : Connective → Except MembershipError Relation
  | comparison o => .ok ((comparison o).relation rhs)
  | membership _ => membershipRelation k rhs

/-- a condition, or the refusal of its membership test -/
def conditionAsking (inner : Inner) : Parser (Except MembershipError (Condition Node)) := do
  let lhs := Node.dropFinalSpace (← block inner)
  match (← peek).bind fun t => (Connective.ofKind? t.kind).map (t.kind, ·) with
  | none => return .ok ⟨lhs, .notEqualTo, emptyTextSide⟩
  | some (kind, connective) =>
    advance
    skip .space
    match ← block inner with
    | [] => fail connective.emptyError
    | rhs => return (connective.ask kind rhs).map fun relation => ⟨lhs, relation, Node.dropFinalSpace rhs⟩

/-- an entry of a tag, or nothing where it has no first value to look at -/
def tagEntryAsking (inner : Inner) : Parser (Option (List Node)) := do
  let name ← requireText .tagName
  require (.mark .colon) (.tagColon name)
  let values ← blockList inner
  match values.head? with
  | none => return none
  | some [] => fail .emptyTagValue
  | some _ => return some [.tag name values]

/-- a connective is asked about its own kind, and with a right-hand side, so it answers -/
theorem ask_eq_relation {k : Kind} {connective : Connective} {rhs : List Node}
    (hk : Connective.ofKind? k = some connective) (hr : rhs ≠ []) :
    connective.ask k rhs = .ok (connective.relation rhs) := by
  cases connective with
  | comparison o => rfl
  | membership negated =>
    obtain ⟨n, ns, rfl⟩ := List.exists_cons_of_ne_nil hr
    simp [Connective.ask, membershipRelation, hk, Connective.relation]

/-- no membership test of a condition is refused -/
theorem conditionAsking_eq (inner : Inner) : conditionAsking inner = Except.ok <$> condition inner := by
  simp only [conditionAsking, condition, map_bind]
  congr 1
  funext lhs
  congr 1
  funext t?
  cases t? with
  | none => rfl
  | some t =>
    cases hk : Connective.ofKind? t.kind with
    | none => simp [hk]
    | some connective =>
      simp only [Option.bind_some, hk, Option.map_some, map_bind]
      congr 1
      funext _
      congr 1
      funext _
      congr 1
      funext rhs
      cases rhs with
      | nil => rfl
      | cons n ns => simp [ask_eq_relation hk (List.cons_ne_nil n ns), Except.map]

/-- every entry of a tag has a first value to look at -/
theorem tagEntryAsking_eq (inner : Inner) : tagEntryAsking inner = some <$> tagEntry inner := by
  simp only [tagEntryAsking, tagEntry, map_bind]
  congr 1
  funext name
  congr 1
  funext _
  funext c
  refine bind_apply_congr rfl fun values d h => ?_
  obtain ⟨first, _, rest, -, -, rfl⟩ := gives_blockList.1 h
  cases first <;> simp
  rfl

/-! ## Sessions -/

/-- **Failures point at the cursor.** Take any step of any session over some tokens, and an error that it ends in. What
the message says was found is what the session shows as found where the step leaves it, and that is `eof` exactly at the
end of the tokens or beyond. If the message says nothing of the kind, it says that the end came unexpectedly, and the
cursor is there; or that constructs are nested deeper than the limit; or which content is missing, in one of eight fixed
wordings. There is no other failure: no membership test of a condition is refused, and every entry of a tag has a first
value. -/
theorem Session.failures_point_at_cursor (limit : Nat) (ts : List Token) (commands : List Session.Command) :
    (∀ r ∈ Session.run limit (.start ts) commands, ∀ e, r.result = .error e →
      ∃ shown, (Session.Command.found.run limit r.cursor).result = .ok (.text shown) ∧
        (shown = "eof" ↔ ts.length ≤ r.cursor.index) ∧ Wording limit shown (ts.length ≤ r.cursor.index) e.message) ∧
      ∀ inner : Inner, conditionAsking inner = Except.ok <$> condition inner ∧
        tagEntryAsking inner = some <$> tagEntry inner := by
  refine ⟨fun r hr e he => ?_, fun inner => ⟨conditionAsking_eq inner, tagEntryAsking_eq inner⟩⟩
  obtain ⟨before, command, rfl⟩ := Session.exists_command_of_mem_run hr
  have between : Session.Between ts (Session.cursorAfter limit (.start ts) before) :=
    Session.between_cursorAfter (Session.between_start ts) before
  have left : Session.Between ts (command.run limit (Session.cursorAfter limit (.start ts) before)).cursor :=
    (between.step command).1
  have atEnd := left.ahead_eq_nil_iff
  have points := Session.Command.error_pointsAt he
  refine ⟨_, rfl, ?_, ?_⟩
  · rw [foundText_eq_eof_iff, List.head?_eq_none_iff, atEnd]
  · rw [← atEnd]
    exact points.wording

/-- a control bracket without its space, then two steps that lead beyond the end, and a rule there -/
theorem Session.failures_point_at_cursor_space :
    let ts : List Token := [.mark .openSquare, .keyword .ifWord, .text "x"]
    ∃ first second third last,
      Session.run 1 (.start ts) [.fragment, .advance, .advance, .construct .rule] = [first, second, third, last] ∧
      first.result = .error (.missing (.spaceAfter .ifWord) (some (.text "x"))) ∧ first.cursor.index = 2 ∧
      (∃ shown, (Session.Command.found.run 1 first.cursor).result = .ok (.text shown) ∧ (shown = "eof" ↔ 3 ≤ 2) ∧
        Wording 1 shown (3 ≤ 2) "expected space after if, got: 'x'") ∧
      last.result = .error .unexpectedEnd ∧ last.cursor.index = 4 ∧
      ∃ shown, (Session.Command.found.run 1 last.cursor).result = .ok (.text shown) ∧ (shown = "eof" ↔ 3 ≤ 4) ∧
        Wording 1 shown (3 ≤ 4) "unexpected eof" := by
  intro ts
  obtain ⟨points, -⟩ := Session.failures_point_at_cursor 1 ts [.fragment, .advance, .advance, .construct .rule]
  have missing := points _ List.mem_cons_self (.missing (.spaceAfter .ifWord) (some (.text "x"))) rfl
  have ended := points _ (List.mem_of_getLast? rfl) .unexpectedEnd rfl
  exact ⟨_, _, _, _, rfl, rfl, rfl, missing, rfl, rfl, ended⟩

end TextGrammar
