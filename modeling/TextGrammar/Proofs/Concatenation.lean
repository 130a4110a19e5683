/-
Parsing one list of tokens behind another.

Three things are compared with a parse of `us ++ ts`.
- A parse of `us` that stops in time. Parsers look at the next token, and at the one behind it only if the next one is a
  square bracket that opens. So a run that leaves tokens over which hide the rest (`Settled`) does not change when more
  tokens follow (`extends_construct`, `document_extends`). This holds of failing runs as well.
- A parse of `us` that takes all of it. A construct ends in a token of its own, so it does not change either
  (`firm_construct`), with three exceptions: a hash with nothing behind it, a square bracket that opens at the end, and
  a colon at the end in front of a number.
- A parse of `ts`. Where it begins makes no difference other than to the indices in its remarks (`document_later`).

Results:
- `build_append`: a parse of `us ++ ts` is a parse of `us` and then a parse of `ts`, but for the three exceptions;
- `build_error_append`: a parse of `us` that fails in front of its end is the parse of `us ++ ts`.
-/
import TextGrammar.Proofs.Closing
import TextGrammar.Proofs.Passage

namespace TextGrammar

open TextGrammar.Parser

/-! ## Later in a longer list -/

/-- the same place with `k` more tokens behind it -/
def Cursor.later (k : Nat) (c : Cursor) : Cursor := { c with index := c.index + k }

theorem keepsAhead_later (k : Nat) : KeepsAhead (Cursor.later k) where
  ahead _ := rfl
  next c := by simp [Cursor.later, Cursor.next, Nat.add_right_comm]
  below _ := rfl

/-- the remark about a token that is `k` places later -/
def Remark.later (k : Nat) : Remark → Remark
  | .stray t i => .stray t (i + k)
  | r => r

/-- the entry about a token that is `k` places later -/
def Notice.later (k : Nat) : Notice → Notice
  | .debug r => .debug (r.later k)
  | .error e => .error e

/-- the run with `k` more tokens behind it -/
def Run.later {α : Type} (k : Nat) (r : Run α) : Run α :=
  ⟨r.result, r.cursor.later k, r.remarks.map (·.later k)⟩

theorem later_bind {α β : Type} {k : Nat} {p q : Parser α} {f g : α → Parser β} {c : Cursor}
    (h : q (c.later k) = (p c).later k) (hf : ∀ a d, Gives p c a d → g a (d.later k) = (f a d).later k) :
    (q >>= g) (c.later k) = ((p >>= f) c).later k := by
  rcases hp : p c with ⟨e | a, d, rs⟩ <;> rw [hp] at h
  · rw [bind_apply_error hp, bind_apply_error h]
    rfl
  · rw [bind_apply_ok hp, bind_apply_ok h, hf a d ⟨by rw [hp], by rw [hp]⟩]
    simp [Run.later]

/-- runs that are the same but for the place where they begin -/
def moved (k : Nat) : RunRelation where
  At _ := True
  other := Cursor.later k
  keeps := keepsAhead_later k
  Rel _ r r' := r' = r.later k
  at_next _ _ := trivial
  pure _ _ := rfl
  fail _ := rfl
  remark {r} c h := by
    cases r with
    | stray t i => cases h
    | _ => rfl
  advance _ h := h
  bind _ hp hf := later_bind hp fun a d hd => hf a d trivial hd
  deeper {α p q c} h := congrArg (fun r : Run α => { r with cursor := r.cursor.above }) h

theorem construct_later (limit n k : Nat) (f : Construct) :
    (moved k).lockstep.InStep (construct limit n f) (construct limit n f) :=
  Lockstep.inStep_construct (fun _ => trivial) (fun _ => rfl) n f

/-- a document some tokens later -/
theorem document_later (limit k : Nat) (c : Cursor) : document limit (c.later k) = (document limit c).later k := by
  have constructs (f : Construct) : (moved k).lockstep.InStep (outermost limit f) (outermost limit f) :=
    fun c hc => construct_later limit (limit - c.depth) k f c hc
  exact Lockstep.document_inStep constructs (fun t c _ => rfl) c trivial

/-! ## In front of more tokens -/

/-- the same place with more tokens behind the last one -/
def Cursor.followedBy (ts : List Token) (c : Cursor) : Cursor := { c with ahead := c.ahead ++ ts }

@[simp] theorem followedBy_depth (ts : List Token) (c : Cursor) : (c.followedBy ts).depth = c.depth := rfl

@[simp] theorem followedBy_index (ts : List Token) (c : Cursor) : (c.followedBy ts).index = c.index := rfl

theorem followedBy_ahead {c : Cursor} {t : Token} {us : List Token} (h : c.ahead = t :: us) (ts : List Token) :
    (c.followedBy ts).ahead = t :: (us ++ ts) := by
  rw [Cursor.followedBy, h, List.cons_append]

theorem followedBy_next {c : Cursor} (h : c.ahead ≠ []) (ts : List Token) :
    (c.followedBy ts).next = c.next.followedBy ts := by
  obtain ⟨t, us, hts⟩ := List.exists_cons_of_ne_nil h
  simp [Cursor.followedBy, Cursor.next, hts]

/-- the run with more tokens behind the last one -/
def Run.followedBy {α : Type} (ts : List Token) (r : Run α) : Run α := { r with cursor := r.cursor.followedBy ts }

/-- these tokens hide what is behind them: there is one, and it is no square bracket that opens at the end -/
def Settled (us : List Token) : Prop := us ≠ [] ∧ us ≠ [.mark .openSquare]

theorem Settled.of_reaches {c d : Cursor} (h : Settled d.ahead) (hr : c.Reaches d) : Settled c.ahead := by
  obtain ⟨taken, hs, -, -⟩ := hr
  rw [hs]
  refine ⟨fun he => h.1 (List.append_eq_nil_iff.1 he).2, fun he => ?_⟩
  rcases List.append_eq_singleton_iff.1 he with ⟨-, hd⟩ | ⟨-, hd⟩
  · exact h.2 hd
  · exact h.1 hd

theorem startAt_append {inner : Inner} {us : List Token} (h : Settled us) (ts : List Token) :
    startAt inner (us ++ ts) = startAt inner us := by
  obtain ⟨h₁, h₂⟩ := h
  match us with
  | [] => exact absurd rfl h₁
  | [t] =>
    cases t with
    | mark m =>
      cases m with
      | openSquare => exact absurd rfl h₂
      | _ => rfl
    | _ => rfl
  | t :: u :: us =>
    cases t with
    | mark m =>
      cases m with
      | openSquare =>
        cases u with
        | keyword w => cases w <;> rfl
        | _ => rfl
      | _ => rfl
    | _ => rfl

/-- the run of `p` goes over tokens ahead, and if it leaves over tokens that hide the rest, `q` does the same in front
of more -/
structure Extends (ts : List Token) {α : Type} (p q : Parser α) (c : Cursor) : Prop where
  reaches : c.Reaches (p c).cursor
  eq : Settled (p c).cursor.ahead → q (c.followedBy ts) = (p c).followedBy ts

section

variable {α β : Type} {ts : List Token} {p q : Parser α} {f g : α → Parser β} {c : Cursor}

theorem bind_followedBy {a : α} {d : Cursor} (hp : Gives p c a d) (h : q (c.followedBy ts) = (p c).followedBy ts)
    (hf : g a (d.followedBy ts) = (f a d).followedBy ts) :
    (q >>= g) (c.followedBy ts) = ((p >>= f) c).followedBy ts := by
  rw [hp.apply] at h
  rw [bind_apply_ok hp.apply, bind_apply_ok h, hf]
  rfl

theorem Extends.bind (h : Extends ts p q c) (hf : ∀ a d, Gives p c a d → Extends ts (f a) (g a) d) :
    Extends ts (p >>= f) (q >>= g) c := by
  refine ⟨reaches_bind h.reaches fun a d hd => (hf a d hd).reaches, fun hs => ?_⟩
  have he := h.eq
  rcases hp : p c with ⟨e | a, d, rs⟩ <;> rw [hp] at he
  · rw [bind_apply_error hp] at hs ⊢
    exact bind_apply_error (he hs) g
  · have hg : Gives p c a d := ⟨by rw [hp], by rw [hp]⟩
    obtain ⟨hr', he'⟩ := hf a d hg
    rw [bind_apply_ok hp] at hs
    exact bind_followedBy hg ((he (hs.of_reaches hr')).trans (by rw [hp])) (he' hs)

end

/-- runs that are the same in front of more tokens, as far as they leave over some that hide these -/
def extended (ts : List Token) : Lockstep where
  At _ := True
  Rel p q c := Extends ts p q c
  at_next _ _ := trivial
  rel_pure _ c := ⟨.refl c, fun _ => rfl⟩
  rel_fail {α e c} _ := ⟨.refl c, fun _ => rfl⟩
  rel_remark c _ := ⟨.refl c, fun _ => rfl⟩
  rel_peek {α f g c} h := by
    refine ⟨by rw [peek_bind_apply]; exact h.reaches, fun hs => ?_⟩
    rw [peek_bind_apply] at hs
    rw [peek_bind_apply, peek_bind_apply, ← h.eq hs]
    obtain ⟨t, us, hc⟩ := List.exists_cons_of_ne_nil (hs.of_reaches h.reaches).1
    simp [followedBy_ahead hc, hc]
  rel_advance {α f g c} hc h := by
    refine ⟨by rw [advance_bind_apply]; exact (Cursor.reaches_next hc).trans h.reaches, fun hs => ?_⟩
    rw [advance_bind_apply] at hs
    rw [advance_bind_apply, advance_bind_apply, ← h.eq hs, followedBy_next hc]
  rel_bind _ hp hf := hp.bind fun a d hd => hf a d trivial hd
  rel_many {α p q c} hp _ h := by
    have hm : many p c = rounds p (c.ahead ++ ts) c :=
      rounds_eq_of_length_le hp _ _ c (Nat.le_refl _) (by simp)
    obtain ⟨hr, he⟩ := h (c.ahead ++ ts)
    refine ⟨hm ▸ hr, fun hs => ?_⟩
    rw [hm] at hs ⊢
    exact he hs
  rel_fragment {inner inner' c} _ h := by
    have hs (hs : Settled (fragment inner c).cursor.ahead) (hr : c.Reaches (fragment inner c).cursor) :
        startAt inner' (c.followedBy ts).ahead = startAt inner' c.ahead := startAt_append (hs.of_reaches hr) ts
    cases hi : startAt inner c.ahead <;> cases hi' : startAt inner' c.ahead <;> rw [hi, hi'] at h <;> cases h
    · have hf : fragment inner c = ⟨.ok none, c, []⟩ := by rw [fragment_apply, hi]
      rw [hf] at hs
      refine ⟨hf ▸ .refl c, fun hc => ?_⟩
      rw [hf] at hc ⊢
      rw [fragment_apply, hs hc (.refl c), hi']
      rfl
    · rename_i p q hpq
      have hf : fragment inner c = (p >>= fun ns => pure (some ns)) c := by rw [fragment_apply, hi]
      have hb : Extends ts (p >>= fun ns => pure (some ns)) (q >>= fun ns => pure (some ns)) c :=
        hpq.bind fun ns d _ => ⟨.refl d, fun _ => rfl⟩
      rw [hf] at hs
      refine ⟨hf ▸ hb.reaches, fun hc => ?_⟩
      rw [hf] at hc ⊢
      rw [fragment_apply, hs hc hb.reaches, hi']
      exact hb.eq hc
  rel_deeper {α p q c} h := by
    refine ⟨h.reaches.above, fun hs => ?_⟩
    exact congrArg (fun r : Run α => { r with cursor := r.cursor.above }) (h.eq hs)

theorem extends_construct (ts : List Token) (limit n : Nat) (k : Construct) :
    (extended ts).InStep (construct limit n k) (construct limit n k) :=
  Lockstep.inStep_construct (L := extended ts) (fun _ => trivial) (fun c => ⟨.refl c, fun _ => rfl⟩) n k

theorem document_extends (ts : List Token) (limit : Nat) (c : Cursor) :
    Extends ts (document limit) (document limit) c := by
  have constructs (k : Construct) : (extended ts).InStep (outermost limit k) (outermost limit k) := by
    intro c hc
    obtain ⟨reaches, same⟩ := extends_construct ts limit (limit - c.depth) k c hc
    exact ⟨reaches, same⟩
  exact Lockstep.document_inStep constructs (fun _ c _ => ⟨.refl c, fun _ => rfl⟩) c trivial

/-- a place in front of the end hides the rest, unless all that is left is a square bracket that opens -/
theorem settled_drop {us : List Token} {i : Nat} (hi : i < us.length)
    (hb : ¬ (i + 1 = us.length ∧ us[i]? = some (.mark .openSquare))) : Settled (us.drop i) := by
  rw [List.drop_eq_getElem_cons hi]
  refine ⟨List.cons_ne_nil _ _, ?_⟩
  intro h
  obtain ⟨ht, hn⟩ := List.cons.inj h
  have hlast : us.length ≤ i + 1 := List.drop_eq_nil_iff.1 hn
  exact hb ⟨Nat.le_antisymm hi hlast, by rw [List.getElem?_eq_getElem hi, ht]⟩

/-! ## Constructs that take all tokens -/

/-- `us` does not change its meaning in front of `ts`: neither a square bracket nor a weight is cut apart -/
def Sealed (us ts : List Token) : Prop :=
  us.getLast? ≠ some (.mark .openSquare) ∧ ¬ (us.getLast? = some (.mark .colon) ∧ numberAhead ts = true)

theorem Sealed.of_reaches {ts : List Token} {c d : Cursor} (h : Sealed c.ahead ts) (hr : c.Reaches d) :
    Sealed d.ahead ts := by
  obtain ⟨taken, hs, -, -⟩ := hr
  cases hd : d.ahead with
  | nil => exact ⟨by simp, by simp⟩
  | cons t us =>
    have hl : c.ahead.getLast? = (t :: us).getLast? := by simp [hs, hd, List.getLast?_append, List.getLast?_cons]
    rwa [Sealed, ← hl]

theorem Sealed.settled {us ts : List Token} (h : Sealed us ts) (hn : us ≠ []) : Settled us := by
  refine ⟨hn, ?_⟩
  rintro rfl
  exact h.1 rfl

/-- where `p` succeeds without a lone hash, it takes a token, and it does the same in front of more tokens -/
def Firm (ts : List Token) {α : Type} (p : Parser α) (c : Cursor) : Prop :=
  ∀ a d, Gives p c a d → .loneHash ∉ (p c).remarks → Sealed c.ahead ts →
    c.ahead ≠ [] ∧ p (c.followedBy ts) = (p c).followedBy ts

section

variable {α β : Type} {ts : List Token} {p : Parser α} {f : α → Parser β} {c d : Cursor}

theorem Firm.bind (hp : Extends ts p p c) (hf : ∀ a d, Gives p c a d → Firm ts (f a) d) : Firm ts (p >>= f) c := by
  intro b e h hl hs
  obtain ⟨a, d, hg, hb⟩ := gives_bind.1 h
  have hr : c.Reaches d := hg.2 ▸ hp.reaches
  rw [remarks_bind hg, List.mem_append, not_or] at hl
  obtain ⟨hn, he⟩ := hf a d hg b e hb hl.2 (hs.of_reaches hr)
  have hd : Settled d.ahead := (hs.of_reaches hr).settled hn
  exact ⟨(hd.of_reaches hr).1, bind_followedBy hg (hp.eq (hg.2 ▸ hd)) he⟩

theorem Firm.bind_pure (hp : Firm ts p c) (f : α → β) : Firm ts (p >>= fun a => pure (f a)) c := by
  intro b e h hl hs
  obtain ⟨a, d, hg, -⟩ := gives_bind.1 h
  rw [remarks_bind hg, List.mem_append, not_or] at hl
  obtain ⟨hn, he⟩ := hp a d hg hl.1 hs
  exact ⟨hn, bind_followedBy hg he rfl⟩

theorem firm_peek_bind {f : Option Token → Parser β} (hc : c.ahead ≠ [] → Firm ts (f c.ahead.head?) c)
    (hn : c.ahead = [] → ∀ b d, Gives (f none) c b d → .loneHash ∈ (f none c).remarks) : Firm ts (peek >>= f) c := by
  intro b d h hl hs
  rw [gives_peek_bind] at h
  rw [peek_bind_apply] at hl
  by_cases he : c.ahead = []
  · rw [he] at h hl
    exact absurd (hn he b d h) hl
  · obtain ⟨t, us, hts⟩ := List.exists_cons_of_ne_nil he
    rw [peek_bind_apply, peek_bind_apply, ← (hc he b d h hl hs).2]
    exact ⟨he, by simp [followedBy_ahead hts, hts]⟩

theorem firm_advance (hc : c.ahead ≠ []) : Firm ts advance c := by
  intro b d h hl hs
  exact ⟨hc, by simp [advance, Run.followedBy, followedBy_next hc]⟩

theorem firm_advance_pure (hc : c.ahead ≠ []) (b : β) : Firm ts (advance >>= fun _ => pure b) c :=
  (firm_advance hc).bind_pure fun _ => b

theorem firm_expect (k : Kind) : Firm ts (expect k) c := by
  refine firm_peek_bind (fun hc => ?_) fun _ b d h => absurd h gives_fail
  obtain ⟨t, us, hts⟩ := List.exists_cons_of_ne_nil hc
  simp only [hts, List.head?_cons]
  split
  · exact firm_advance hc
  · exact fun b d h => absurd h gives_fail

theorem firm_require (k : Kind) (due : Expectation) : Firm ts (require k due) c := by
  unfold require nextIs
  simp only [bind_assoc, pure_bind]
  refine firm_peek_bind (fun hc => ?_) fun _ b d h => by simp at h
  split
  · exact firm_advance hc
  · intro b d h
    simp at h

/-- constructs are firm because of the token that they close with -/
def firmly (ts : List Token) : Closing (extended ts) where
  Has p c := Firm ts p c
  everywhere _ := trivial
  bind := Firm.bind
  bind_pure hp f := hp.bind_pure f
  expect k _ := firm_expect k
  require k due _ := firm_require k due

theorem weight_number {x : Float} {s : Option String} {us : List Token}
    (hc : c.ahead = .mark .colon :: .number x s :: us) : weight c = ⟨.ok [.weight x], c.next.next, []⟩ := by
  simp [weight, expect, bind_apply, map_apply, Except.map, peek, advance, Cursor.next, hc, Token.kind]

theorem weight_colon {us : List Token} (hc : c.ahead = .mark .colon :: us) (hn : numberAhead us = false) :
    weight c = ⟨.ok [.text ":"], c.next, [.bareColon]⟩ := by
  have hx := numberAhead_eq_false_iff.1 hn
  simp [weight, expect, bind_apply, map_apply, Except.map, peek, advance, remark, Cursor.next, hc, Token.kind]

/-- a colon at the end is no weight in front of tokens that do not begin with a number -/
theorem firm_weight : Firm ts weight c := by
  intro ns d h _ hs
  obtain ⟨hc, -⟩ := gives_weight.1 h
  obtain ⟨us, hus⟩ := List.head?_eq_some_iff.1 hc
  have hts := followedBy_ahead hus ts
  have hnext := followedBy_next (c := c) (by simp [hus]) ts
  refine ⟨by simp [hus], ?_⟩
  cases hn : numberAhead us with
  | true =>
    obtain ⟨x, s, vs, rfl⟩ : ∃ x s vs, us = .number x s :: vs := by
      unfold numberAhead at hn
      split at hn
      · exact ⟨_, _, _, rfl⟩
      · cases hn
    rw [weight_number hus, weight_number hts, hnext]
    simp [Run.followedBy, Cursor.followedBy, Cursor.next, hus]
  | false =>
    have hn' : numberAhead (us ++ ts) = false := by
      cases us with
      | nil => exact Bool.eq_false_iff.2 fun h => hs.2 ⟨by rw [hus]; rfl, h⟩
      | cons u us =>
        cases u with
        | number x s => exact hn
        | _ => rfl
    rw [weight_colon hus hn, weight_colon hts hn', hnext]
    rfl

end

section

variable {ts : List Token} {n : Nat} {inner : Inner} {c d : Cursor} (hs : Sound n inner)
  (hi : ∀ k, (extended ts).InStep (inner k) (inner k)) (hf : ∀ k c, Firm ts (inner k) c)

include hf

theorem firm_startAt {p : Parser (List Node)} (hp : startAt inner c.ahead = some p) : Firm ts p c := by
  rcases startAt_cases hp with ⟨k, -, rfl⟩ | ⟨us, -, rfl⟩ | ⟨s, us, hc, rfl⟩ | ⟨x, s, us, hc, rfl⟩
  · exact hf k c
  · exact firm_weight
  · exact firm_advance_pure (by simp [hc]) _
  · exact firm_advance_pure (by simp [hc]) _

/-- a fragment in front of more tokens -/
theorem fragment_followedBy {o : Option (List Node)} (h : Gives (fragment inner) c o d) (hc : c.ahead ≠ [])
    (hl : .loneHash ∉ (fragment inner c).remarks) (ht : Sealed c.ahead ts) :
    fragment inner (c.followedBy ts) = (fragment inner c).followedBy ts := by
  have hstart : startAt inner (c.followedBy ts).ahead = startAt inner c.ahead := startAt_append (ht.settled hc) ts
  rw [fragment_apply, fragment_apply, hstart]
  rw [fragment_apply] at hl
  cases hp : startAt inner c.ahead with
  | none => rfl
  | some p =>
    rw [hp] at hl
    have hg : Gives (p >>= fun ns => pure (some ns)) c o d := by
      obtain ⟨hr, hd⟩ := h
      rw [fragment_apply, hp] at hr hd
      exact ⟨hr, hd⟩
    exact ((firm_startAt hf hp).bind_pure some o d hg hl ht).2

omit hf
include hs hi

/-- a hash that takes all tokens is a lone one or ends in a hash -/
theorem firm_ruleBody : Firm ts (ruleBody inner) c := by
  refine firm_peek_bind (fun hc => ?_) fun _ ns d h => ?_
  · obtain ⟨t, us, hts⟩ := List.exists_cons_of_ne_nil hc
    simp only [hts, List.head?_cons]
    split
    · rename_i h
      cases h
    · exact firm_advance_pure hc _
    · exact (firmly ts).ruleReference hs hi c
  · simp [bind_apply, remark]

theorem firm_rule : Firm ts (rule inner) c := by
  refine Firm.bind (Lockstep.inStep_expect (L := extended ts) _ c trivial) fun _ d _ => ?_
  refine Firm.bind (Lockstep.inStep_headTags hi hs hs d trivial) fun tags e _ => ?_
  exact (firm_ruleBody hs hi).bind_pure _

theorem firm_body (k : Construct) : Firm ts (k.body inner) c := by
  by_cases hk : k = .rule
  · subst hk
    exact firm_rule hs hi
  · exact (firmly ts).body hs hi c hk

end

/-- a construct that takes all tokens does the same in front of more -/
theorem firm_construct (ts : List Token) (limit n : Nat) (k : Construct) (c : Cursor) :
    Firm ts (construct limit n k) c := by
  cases n with
  | zero => exact fun ns d h => absurd h gives_fail
  | succ n =>
    intro ns d h hl hs
    obtain ⟨e, he, -⟩ := gives_deeper.1 h
    obtain ⟨hn, hb⟩ := firm_body (construct_sound limit n) (extends_construct ts limit n) k
      ns e he hl hs
    exact ⟨hn, congrArg (fun r : Run (List Node) => { r with cursor := r.cursor.above }) hb⟩

/-! ## Blocks and documents -/

/-- the run behind nodes and remarks that are there already -/
def Run.after (ns : List Node) (rs : List Remark) (r : Run (List Node)) : Run (List Node) :=
  ⟨r.result.map (ns ++ ·), r.cursor, rs ++ r.remarks⟩

theorem after_nil (r : Run (List Node)) : r.after [] [] = r := by
  rcases r with ⟨_ | ns, d, rs⟩ <;> rfl

theorem after_after (ms ns : List Node) (rs qs : List Remark) (r : Run (List Node)) :
    (r.after ns qs).after ms rs = r.after (ms ++ ns) (rs ++ qs) := by
  rcases r with ⟨_ | ns, d, rs⟩ <;> simp [Run.after, Except.map]

/-- a round of a repetition that puts its nodes together, and the rounds behind it -/
theorem flatten_many_apply {p : Parser (Option (List Node))} (hp : Advances p) {c d : Cursor} {ns : List Node}
    {rs : List Remark} (h : p c = ⟨.ok (some ns), d, rs⟩) :
    (do return (← many p).flatten : Parser (List Node)) c =
      ((do return (← many p).flatten : Parser (List Node)) d).after ns rs := by
  rw [bind_pure_comp]
  conv => lhs; rw [many_eq hp]
  rw [map_apply, bind_apply_ok h]
  rcases hm : many p d with ⟨e | nss, e', qs⟩ <;> simp [map_apply, hm, Except.map, Run.after]

section

variable {ts : List Token} {limit n : Nat} {c d : Cursor} {ns : List Node}

theorem block_nil {inner : Inner} (hc : c.ahead = []) : block inner c = ⟨.ok [], c, []⟩ := by
  rw [block, bind_pure_comp, map_apply, many, hc, rounds_nil_apply, fragment_apply, hc]
  rfl

theorem block_cons {inner : Inner} {rs : List Remark} (hs : Sound n inner)
    (h : fragment inner c = ⟨.ok (some ns), d, rs⟩) : block inner c = (block inner d).after ns rs :=
  flatten_many_apply (advances_fragment hs) h

theorem document_nil (hc : c.ahead = []) : document limit c = ⟨.ok [], c, []⟩ := by
  rw [document, bind_pure_comp, map_apply, many, hc, rounds_nil_apply, passage_nil hc]
  rfl

theorem document_cons {rs : List Remark} (h : passage limit c = ⟨.ok (some ns), d, rs⟩) :
    document limit c = (document limit d).after ns rs :=
  flatten_many_apply (advances_passage limit) h

/-- a block that takes all tokens goes on with the block in front of which it stands -/
theorem block_followedBy (h : Gives (block (construct limit n)) c ns d) (hd : d.ahead = [])
    (hl : .loneHash ∉ (block (construct limit n) c).remarks) (hs : Sealed c.ahead ts) :
    block (construct limit n) (c.followedBy ts) =
      (block (construct limit n) (d.followedBy ts)).after ns (block (construct limit n) c).remarks := by
  have sound := construct_sound limit n
  obtain ⟨nss, hm, rfl⟩ := gives_block.1 h
  clear h
  induction nss generalizing c with
  | nil =>
    rcases (gives_many (advances_fragment sound)).1 hm with ⟨hf, -⟩ | ⟨_, _, _, _, _, h⟩
    · obtain ⟨-, rfl⟩ := gives_fragment_none.1 hf
      rw [block_nil hd, List.flatten_nil, after_nil]
    · cases h
  | cons ms nss ih =>
    rcases (gives_many (advances_fragment sound)).1 hm with ⟨_, h⟩ | ⟨_, _, e, hf, hm, h⟩
    · cases h
    · cases h
      have hlt := (fragment_sound sound hf).fragment_shortens
      have hc : c.ahead ≠ [] := by rintro hc; simp [hc] at hlt
      rw [block_cons sound hf.apply] at hl ⊢
      rw [Run.after, List.mem_append, not_or] at hl
      have hfe := fragment_followedBy (firm_construct ts limit n) hf hc hl.1 hs
      rw [hf.apply] at hfe
      have hreach : c.Reaches e := (orderly_fragment limit n).gives hf
      rw [block_cons sound hfe, ih hl.2 (hs.of_reaches hreach) hm, after_after]
      rfl

theorem document_error {e : ParseError} {rs : List Remark} (h : passage limit c = ⟨.error e, d, rs⟩) :
    document limit c = ⟨.error e, d, rs⟩ := by
  rw [document, bind_pure_comp, many_eq (advances_passage limit), map_apply, bind_apply_error h]
  rfl

/-- nodes in front of the first block of a document are in front of the document -/
theorem document_after {rs : List Remark} (hc : c.ahead ≠ [])
    (h : block (construct limit (limit - c.depth)) c =
      (block (construct limit (limit - d.depth)) d).after ns rs) :
    document limit c = (document limit d).after ns rs := by
  have hpc : passage limit c = _ := passage_apply hc
  by_cases hd : d.ahead = []
  · rw [h, block_nil hd] at hpc
    simp only [Run.after, Except.map, hd, List.append_nil] at hpc
    exact document_cons hpc
  have hpd : passage limit d = _ := passage_apply hd
  rcases hb : block (construct limit (limit - d.depth)) d with ⟨err | ms, e, qs⟩
  · rw [h, hb] at hpc
    rw [hb] at hpd
    rw [document_error hpc, document_error hpd]
    rfl
  · rw [h, hb] at hpc
    rw [hb] at hpd
    cases he : e.ahead with
    | nil =>
      simp only [Run.after, Except.map, he] at hpc hpd
      rw [document_cons hpc, document_cons hpd, after_after]
    | cons t us =>
      simp only [Run.after, Except.map, he] at hpc hpd
      rw [document_cons hpc, document_cons hpd, after_after, List.append_assoc, List.append_assoc]

/-- a passage goes on with the document in front of which it stands -/
theorem passage_followedBy (h : Gives (passage limit) c (some ns) d) (hl : .loneHash ∉ (passage limit c).remarks)
    (hs : Sealed c.ahead ts) :
    c.Reaches d ∧ document limit (c.followedBy ts) =
      (document limit (d.followedBy ts)).after ns (passage limit c).remarks := by
  obtain ⟨hc, ms, e, hb, he⟩ := gives_passage_some.1 h
  have hreach : c.Reaches e := (orderly_block limit _).gives hb
  have hcts : (c.followedBy ts).ahead ≠ [] := List.append_ne_nil_of_left_ne_nil hc ts
  rw [passage_apply hc, hb.apply] at hl ⊢
  rcases he with ⟨he, rfl, rfl⟩ | ⟨t, he, rfl, rfl⟩
  · simp only [he] at hl ⊢
    refine ⟨hreach, document_after hcts ?_⟩
    rw [followedBy_depth, followedBy_depth, hreach.depth_eq]
    exact block_followedBy hb he hl hs
  · obtain ⟨us, hus⟩ := List.head?_eq_some_iff.1 he
    simp only [hus] at hl ⊢
    refine ⟨hreach.trans (Cursor.reaches_next (by simp [hus])), ?_⟩
    have hse : Settled e.ahead := (hs.of_reaches hreach).settled (by simp [hus])
    have hblock := (Lockstep.inStep_block (L := extended ts) (extends_construct ts limit (limit - c.depth))
      (construct_sound limit _) (construct_sound limit _) c trivial).eq (hb.2.symm ▸ hse)
    have hpassage : passage limit (c.followedBy ts) = _ := passage_apply hcts
    rw [followedBy_depth, hblock, hb.apply] at hpassage
    simp only [Run.followedBy, followedBy_ahead hus, followedBy_next (c := e) (by simp [hus]),
      followedBy_index] at hpassage
    exact document_cons hpassage

/-- a document goes on with the document in front of which it stands -/
theorem document_followedBy (h : Gives (document limit) c ns d) (hl : .loneHash ∉ (document limit c).remarks)
    (hs : Sealed c.ahead ts) :
    c.Reaches d ∧ d.ahead = [] ∧ document limit (c.followedBy ts) =
      (document limit (d.followedBy ts)).after ns (document limit c).remarks := by
  obtain ⟨nss, hm, rfl⟩ : ∃ nss, Gives (many (passage limit)) c nss d ∧ nss.flatten = ns := by simpa [document] using h
  clear h
  induction nss generalizing c with
  | nil =>
    rcases (gives_many (advances_passage limit)).1 hm with ⟨hp, -⟩ | ⟨_, _, _, _, _, h⟩
    · obtain ⟨hn, rfl⟩ := gives_passage_none.1 hp
      rw [document_nil hn, List.flatten_nil, after_nil]
      exact ⟨.refl c, hn, rfl⟩
    · cases h
  | cons ms nss ih =>
    rcases (gives_many (advances_passage limit)).1 hm with ⟨_, h⟩ | ⟨_, _, e, hp, hm, h⟩
    · cases h
    · cases h
      rw [document_cons hp.apply, Run.after, List.mem_append, not_or] at hl
      obtain ⟨hce, hpe⟩ := passage_followedBy hp hl.1 hs
      obtain ⟨hed, hd, hde⟩ := ih hl.2 (hs.of_reaches hce) hm
      refine ⟨hce.trans hed, hd, ?_⟩
      rw [hpe, hde, document_cons hp.apply, after_after]
      rfl

end

/-- the report of a run later on, behind nodes and remarks that are there already -/
theorem ofRun_after_later (ns : List Node) (rs : List Remark) (k : Nat) (r : Run (List Node)) :
    (Report.ofRun ((r.later k).after ns rs)).result = (Report.ofRun r).result.map (ns ++ ·) ∧
      (Report.ofRun ((r.later k).after ns rs)).log =
        rs.map .debug ++ (Report.ofRun r).log.map (·.later k) := by
  rcases r with ⟨e | ms, d, qs⟩ <;>
    exact ⟨rfl, by simp [Report.ofRun, Run.after, Run.later, Except.map, Notice.later, Function.comp_def]⟩

/-- **Joining texts.** If tokens are a tree, what follows them is parsed as if it stood alone: the nodes, or the error,
and the log are put behind those of the tokens in front, with stray tokens at their new indices. The tokens in front
must not end in a lone hash, in a square bracket that opens, or in a colon in front of a number. -/
theorem build_append {limit : Nat} {us ts : List Token} {ns : List Node} (h : (build limit us).result = .ok ns)
    (hl : .debug .loneHash ∉ (build limit us).log) (hb : us.getLast? ≠ some (.mark .openSquare))
    (hw : ¬ (us.getLast? = some (.mark .colon) ∧ numberAhead ts = true)) :
    (build limit (us ++ ts)).result = (build limit ts).result.map (ns ++ ·) ∧
      (build limit (us ++ ts)).log = (build limit us).log ++ (build limit ts).log.map (·.later us.length) := by
  have hg : Gives (document limit) (.start us) ns (document limit (.start us)).cursor := ⟨h, rfl⟩
  have hlog : (build limit us).log = (document limit (.start us)).remarks.map .debug := by
    simp [build, Report.ofRun, hg.1]
  have hlone : .loneHash ∉ (document limit (.start us)).remarks := fun hm => hl (hlog ▸ List.mem_map_of_mem hm)
  obtain ⟨⟨taken, hus, hindex, hdepth⟩, hend, hdoc⟩ := document_followedBy hg hlone ⟨hb, hw⟩
  have hstart : (document limit (.start us)).cursor.followedBy ts = (Cursor.start ts).later us.length := by
    rw [hend, List.append_nil] at hus
    rw [Cursor.followedBy, hend, hindex, hdepth, ← hus]
    rfl
  rw [hstart, document_later] at hdoc
  rw [hlog, build, build, show Cursor.start (us ++ ts) = (Cursor.start us).followedBy ts from rfl, hdoc]
  exact ofRun_after_later ns _ _ _

/-- a dot that is left over, in front of another one and of a tag that is not closed -/
theorem build_append_failing :
    (build 1 [.text "a", .mark .dot]).result = .ok [.text "a", .text "."] ∧
      (build 1 [.text "a", .mark .dot, .mark .dot, .mark .openSquare, .text "b"]).result =
        .error (.missing (.tagColon "b") none) ∧
      (build 1 [.text "a", .mark .dot, .mark .dot, .mark .openSquare, .text "b"]).log =
        [.debug (.stray (.mark .dot) 1), .debug (.stray (.mark .dot) 2), .error (.missing (.tagColon "b") none)] := by
  have h : (build 1 [.text "a", .mark .dot]).result = .ok [.text "a", .text "."] := by rfl
  have joined := @build_append 1 _ [.mark .dot, .mark .openSquare, .text "b"] _ h (by decide) (by decide) (by decide)
  exact ⟨h, joined⟩

/-- **Errors in front of the end are final.** If the parse of some tokens fails at one of them, tokens that follow do
not change the error or the log. The exception is a failure at a square bracket that opens as the last token, since
what it begins depends on the token behind it. -/
theorem build_error_append {limit i : Nat} {us : List Token} {e : ParseError}
    (h : (build limit us).result = .error e) (hi : (document limit (.start us)).cursor.index = i)
    (hlt : i < us.length) (hb : ¬ (i + 1 = us.length ∧ us[i]? = some (.mark .openSquare))) (ts : List Token) :
    (build limit (us ++ ts)).result = .error e ∧ (build limit (us ++ ts)).log = (build limit us).log := by
  obtain ⟨reaches, same⟩ := document_extends ts limit (.start us)
  have hahead : (document limit (.start us)).cursor.ahead = us.drop i := hi ▸ reaches.ahead_eq_drop rfl
  have hdoc : document limit (.start (us ++ ts)) = (document limit (.start us)).followedBy ts :=
    same (hahead ▸ settled_drop hlt hb)
  have hbuild : build limit (us ++ ts) = build limit us := by
    rw [build, hdoc]
    rfl
  rw [hbuild]
  exact ⟨h, rfl⟩

/-- a bracket that is left over, and a rule in which a second dot stands where a name is due -/
theorem build_error_append_dot :
    (build 1 [.mark .closeSquare, .mark .hash, .text "a", .mark .dot, .mark .dot]).result =
        .error (.missing (.modifierName "a") (some (.mark .dot))) ∧
      (document 1 (.start [.mark .closeSquare, .mark .hash, .text "a", .mark .dot, .mark .dot])).cursor.index = 4 ∧
      (build 1 [.mark .closeSquare, .mark .hash, .text "a", .mark .dot, .mark .dot, .text "b", .mark .hash]).result =
        .error (.missing (.modifierName "a") (some (.mark .dot))) ∧
      (build 1 [.mark .closeSquare, .mark .hash, .text "a", .mark .dot, .mark .dot, .text "b", .mark .hash]).log =
        [.debug (.stray (.mark .closeSquare) 0), .error (.missing (.modifierName "a") (some (.mark .dot)))] := by
  have h : (build 1 [.mark .closeSquare, .mark .hash, .text "a", .mark .dot, .mark .dot]).result =
      .error (.missing (.modifierName "a") (some (.mark .dot))) := by rfl
  have hi : (document 1 (.start [.mark .closeSquare, .mark .hash, .text "a", .mark .dot, .mark .dot])).cursor.index =
      4 := by rfl
  exact ⟨h, hi, build_error_append h hi (by decide) (by decide) [.text "b", .mark .hash]⟩

end TextGrammar
