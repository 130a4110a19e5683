/-
What the limit on nesting does to a parse.

Nothing but `construct` looks at the levels that are left, and it only ever refuses. So a run with fewer levels is the
run with more levels, or it is cut short by a refusal (`cut_construct`). And a construct takes a token before anything
is parsed inside it, so with more levels than tokens nothing is refused (`construct_not_tooDeep`).

Result:
- `limit_cuts_off`: every token list has one report that all limits from some point on give. Every limit below that
  point is exceeded, with a log that begins as the log of that report does.
-/
import Mathlib.Data.Nat.Find
import TextGrammar.Proofs.Passage

namespace TextGrammar

open TextGrammar.Parser

/-! ## A run and the same run with more levels -/

/-- the remarks of a parser come first in what it begins -/
theorem remarks_prefix_bind {α β : Type} (p : Parser α) (f : α → Parser β) (c : Cursor) :
    (p c).remarks <+: ((p >>= f) c).remarks := by
  rw [bind_apply]
  rcases p c with ⟨_ | a, d, rs⟩
  · exact List.prefix_refl _
  · exact List.prefix_append _ _

/-- the second run, or the beginning of it up to a construct that is nested deeper than the limit -/
def CutAt (limit : Nat) {α : Type} (r r' : Run α) : Prop :=
  r = r' ∨ r.result = .error (.tooDeep limit) ∧ r.remarks <+: r'.remarks

theorem CutAt.bind {limit : Nat} {α β : Type} {p q : Parser α} {f g : α → Parser β} {c : Cursor}
    (h : CutAt limit (p c) (q c)) (hf : ∀ a d, Gives p c a d → CutAt limit (f a d) (g a d)) :
    CutAt limit ((p >>= f) c) ((q >>= g) c) := by
  rcases h with h | ⟨he, hr⟩
  · rcases hp : p c with ⟨e | a, d, rs⟩
    · refine Or.inl ?_
      rw [bind_apply_error hp, bind_apply_error (h.symm.trans hp)]
    · rw [bind_apply_ok hp, bind_apply_ok (h.symm.trans hp)]
      rcases hf a d ⟨by rw [hp], by rw [hp]⟩ with h | ⟨he, hr⟩
      · exact Or.inl (by rw [h])
      · exact Or.inr ⟨he, (List.prefix_append_right_inj rs).2 hr⟩
  · refine Or.inr ?_
    rcases hp : p c with ⟨e | a, d, rs⟩ <;> rw [hp] at he hr
    · rw [bind_apply_error hp]
      exact ⟨congrArg Except.error (Except.error.inj he), hr.trans (remarks_prefix_bind q g c)⟩
    · cases he

/-- cut runs, from the same cursor -/
def cut (limit : Nat) : RunRelation where
  At _ := True
  other := id
  keeps := keepsAhead_id
  Rel _ r r' := CutAt limit r r'
  at_next _ _ := trivial
  pure _ _ := Or.inl rfl
  fail _ := Or.inl rfl
  remark _ _ := Or.inl rfl
  advance _ h := h
  bind _ hp hf := hp.bind fun a d hd => hf a d trivial hd
  deeper {α p q c} h := by
    rcases h with h | h
    · exact Or.inl (congrArg (fun r : Run α => { r with cursor := r.cursor.above }) h)
    · exact Or.inr h

theorem cut_construct {n m : Nat} (limit limit' : Nat) (h : n ≤ m) (k : Construct) :
    (cut limit).lockstep.InStep (construct limit n k) (construct limit' m k) := by
  induction n generalizing m k with
  | zero => exact fun c _ => Or.inr ⟨rfl, List.nil_prefix⟩
  | succ n ih =>
    obtain ⟨m, rfl⟩ := Nat.exists_eq_add_of_le' (Nat.zero_lt_of_lt h)
    exact fun c _ => Lockstep.construct_inStep (ih (Nat.le_of_succ_le_succ h)) k fun _ => trivial

/-- a document under a lower limit -/
theorem cut_document {limit limit' : Nat} (h : limit ≤ limit') (c : Cursor) :
    CutAt limit (document limit c) (document limit' c) := by
  have constructs (k : Construct) : (cut limit).lockstep.InStep (outermost limit k) (outermost limit' k) :=
    fun c hc => cut_construct limit limit' (Nat.sub_le_sub_right h c.depth) k c hc
  exact Lockstep.document_inStep constructs (fun t c _ => Or.inl rfl) c trivial

/-! ## Levels enough -/

/-- no construct is nested too deep -/
def ParseError.NotTooDeep (e : ParseError) : Prop :=
  ∀ limit, e ≠ .tooDeep limit

theorem ParseError.Arises.notTooDeep {At : Cursor → Prop} {c : Cursor} {e : ParseError} (h : e.Arises At c) :
    e.NotTooDeep := by
  rintro limit rfl
  exact h

/-- a run from these tokens in which no construct is too deep -/
abbrev Unlimited (c : Cursor) {α : Type} (r : Run α) : Prop :=
  Obeys ParseError.NotTooDeep (fun _ => True) c r

theorem construct_not_tooDeep {limit n : Nat} (k : Construct) (c : Cursor) (hc : c.ahead.length < n) :
    Unlimited c (construct limit n k c) := by
  induction n generalizing k c with
  | zero => exact absurd hc (Nat.not_lt_zero _)
  | succ n ih =>
    let L := (obeying (P := ParseError.NotTooDeep) (Q := fun _ => True) (·.ahead.length < n)
      (fun h hr => Nat.lt_of_le_of_lt hr.length_le h) (·.notTooDeep) fun _ => trivial).lockstep
    have inside (k : Construct) : L.InStep (construct limit n k) (construct limit n k) := fun c hc => ih k c hc
    refine Lockstep.construct_inStep (L := L) inside k fun hn => ?_
    obtain ⟨t, ts, hts⟩ := List.exists_cons_of_ne_nil hn
    show c.ahead.tail.length < n
    rw [hts] at hc ⊢
    exact Nat.lt_of_succ_lt_succ hc

/-- no construct is too deep under a limit above the number of tokens -/
theorem document_not_tooDeep {limit : Nat} {ts : List Token} (h : ts.length < limit) :
    Unlimited (.start ts) (document limit (.start ts)) := by
  refine document_obeys (fun c => c.depth = 0 ∧ c.ahead.length < limit)
    (fun h hr => ⟨hr.depth_eq.trans h.1, Nat.lt_of_le_of_lt hr.length_le h.2⟩) (·.notTooDeep) (fun _ => trivial) ?_
    ⟨rfl, h⟩
  rintro k c ⟨hd, hc⟩
  refine construct_not_tooDeep k c ?_
  rwa [hd, Nat.sub_zero]

/-! ## The report -/

/-- what is in the log for debugging are the remarks -/
theorem filter_isDebug_log (r : Run (List Node)) :
    (Report.ofRun r).log.filter Notice.isDebug = r.remarks.map .debug := by
  have remarks : (r.remarks.map Notice.debug).filter Notice.isDebug = r.remarks.map .debug := by
    rw [List.filter_eq_self]
    exact List.forall_mem_map.2 fun _ _ => rfl
  rw [Report.ofRun, List.filter_append, remarks]
  cases r.result <;> exact List.append_nil _

/-- `a` is the report on tokens that are nested deeper than the limit, where `b` is a report under a higher limit -/
def Report.Exceeds (limit : Nat) (a b : Report) : Prop :=
  a.result = .error (.tooDeep limit) ∧
    ∃ entries, entries <+: b.log.filter Notice.isDebug ∧ a.log = entries ++ [.error (.tooDeep limit)]

theorem build_eq_or_exceeds {limit limit' : Nat} (h : limit ≤ limit') (ts : List Token) :
    build limit ts = build limit' ts ∨ (build limit ts).Exceeds limit (build limit' ts) := by
  rcases cut_document h (.start ts) with h | ⟨he, hr⟩
  · exact Or.inl (congrArg Report.ofRun h)
  · refine Or.inr ⟨he, (document limit (.start ts)).remarks.map .debug, ?_, ?_⟩
    · rw [build, filter_isDebug_log]
      exact hr.map _
    · simp only [build, Report.ofRun, he]

/-- **The limit only cuts off.** Every token list has one report, without an error about nesting, and a limit from which
on all limits give that report. Every positive limit below is exceeded: the error says so, and the log is that error
behind some of the first remarks of the report. -/
theorem limit_cuts_off (ts : List Token) :
    ∃ enough report, 1 ≤ enough ∧ (∀ limit, report.result ≠ .error (.tooDeep limit)) ∧
      (∀ limit, enough ≤ limit → build limit ts = report) ∧
      ∀ limit, 1 ≤ limit → limit < enough → (build limit ts).result = .error (.tooDeep limit) ∧
        ∃ entries, entries <+: report.log.filter Notice.isDebug ∧
          (build limit ts).log = entries ++ [.error (.tooDeep limit)] := by
  have exists_enough : ∃ n, 1 ≤ n ∧ ∀ limit, (build n ts).result ≠ .error (.tooDeep limit) :=
    ⟨ts.length + 1, Nat.le_add_left 1 _,
      fun limit h => (document_not_tooDeep (Nat.lt_succ_self _)).error _ h limit rfl⟩
  classical
  obtain ⟨h1, henough⟩ := Nat.find_spec exists_enough
  refine ⟨Nat.find exists_enough, build (Nat.find exists_enough) ts, h1, henough, fun limit hl => ?_,
    fun limit h1 hl => ?_⟩
  · rcases build_eq_or_exceeds hl ts with h | ⟨he, -⟩
    · exact h.symm
    · exact absurd he (henough _)
  · rcases build_eq_or_exceeds (Nat.le_of_lt hl) ts with h | h
    · -- a report without that error has to come from a limit that is enough
      exact absurd ⟨h1, h ▸ henough⟩ (Nat.find_min exists_enough hl)
    · exact h

end TextGrammar
