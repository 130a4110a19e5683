/-
The top level of a parse.

A passage is a block and the token that ends it (`passage_apply`). The parsers of the constructs at the top level are
those with the levels that the limit leaves (`block_outermost`).

Results:
- `gives_passage_none`, `gives_passage_some`: what a passage gives;
- `Lockstep.document_inStep`: documents go together, if constructs do;
- `document_obeys`: documents obey, if constructs do;
- `document_end`, `takes_document`: a document goes on to the end or fails, and in both cases it takes a token if there
  is one.
-/
import TextGrammar.Proofs.Motion

namespace TextGrammar

open TextGrammar.Parser

variable {c d : Cursor}

/-! ## Passages -/

theorem sound_outermost (limit : Nat) : Sound limit (outermost limit) :=
  fun k c ns d h => (construct_sound limit _ k c ns d h).mono (Nat.sub_le limit c.depth)

/-- the same orderly runs, from cursors at one depth -/
def sameAtDepth (n : Nat) : RunRelation where
  At c := c.depth = n
  other := id
  keeps := keepsAhead_id
  Rel c r r' := r = r' ∧ c.Reaches r.cursor
  at_next hc _ := hc
  pure _ c := ⟨rfl, .refl c⟩
  fail _ := ⟨rfl, .refl _⟩
  remark c _ := ⟨rfl, .refl c⟩
  advance hc h := ⟨h.1, (Cursor.reaches_next hc).trans h.2⟩
  bind {α β p q f g c} hc hp hf := by
    have next (a : α) (d : Cursor) (h : Gives p c a d) : f a d = g a d ∧ d.Reaches (f a d).cursor := by
      have hr : c.Reaches d := h.2 ▸ hp.2
      exact hf a d (hr.depth_eq.trans hc) h
    refine ⟨bind_apply_congr hp.1 fun a d h => (next a d h).1, ?_⟩
    exact reaches_bind hp.2 fun a d h => (next a d h).2
  deeper h := ⟨congrArg (fun r : Run _ => { r with cursor := r.cursor.above }) h.1, h.2.above⟩

/-- the block at a cursor has the levels that the limit leaves there -/
theorem block_outermost (limit : Nat) (c : Cursor) :
    block (outermost limit) c = block (construct limit (limit - c.depth)) c := by
  have constructs (k : Construct) :
      (sameAtDepth c.depth).lockstep.InStep (outermost limit k) (construct limit (limit - c.depth) k) := by
    intro d hd
    exact ⟨congrArg (fun n => construct limit (limit - n) k d) hd, (orderly_construct limit _ k d).reaches⟩
  exact (Lockstep.inStep_block constructs (sound_outermost limit) (construct_sound limit _) c rfl).1

theorem passage_nil {limit : Nat} (hc : c.ahead = []) : passage limit c = ⟨.ok none, c, []⟩ := by
  simp [passage, bind_apply, peek, hc]

/-- a passage is a block and the token behind it -/
theorem passage_apply {limit : Nat} (hc : c.ahead ≠ []) :
    passage limit c = match block (construct limit (limit - c.depth)) c with
      | ⟨.ok ns, e, rs⟩ => match e.ahead with
        | [] => ⟨.ok (some ns), e, rs⟩
        | t :: _ => ⟨.ok (some (ns ++ [.text t.rawText])), e.next, rs ++ [.stray t e.index]⟩
      | ⟨.error err, e, rs⟩ => ⟨.error err, e, rs⟩ := by
  obtain ⟨t, ts, hts⟩ := List.exists_cons_of_ne_nil hc
  simp only [passage, bind_apply, peek, hts, block_outermost, List.head?_cons, Option.isNone_some, Bool.false_eq_true,
    if_false, List.nil_append]
  rcases block (construct limit (limit - c.depth)) c with ⟨err | ns, e, rs⟩
  · rfl
  · cases he : e.ahead <;> simp [place, remark, advance, bind_apply, map_apply, he, Except.map]

theorem gives_passage_none {limit : Nat} : Gives (passage limit) c none d ↔ c.ahead = [] ∧ c = d := by
  by_cases hc : c.ahead = []
  · simp [Gives, passage_nil hc, hc]
  · simp only [Gives, passage_apply hc, hc, false_and, iff_false]
    rcases block (construct limit (limit - c.depth)) c with ⟨err | ns, e, rs⟩
    · simp
    · cases he : e.ahead <;> simp [he]

theorem gives_passage_some {limit : Nat} {ns : List Node} :
    Gives (passage limit) c (some ns) d ↔
      c.ahead ≠ [] ∧ ∃ ms e, Gives (block (construct limit (limit - c.depth))) c ms e ∧
        (e.ahead = [] ∧ ms = ns ∧ e = d ∨
          ∃ t, e.ahead.head? = some t ∧ ms ++ [.text t.rawText] = ns ∧ e.next = d) := by
  by_cases hc : c.ahead = []
  · simp [Gives, passage_nil hc, hc]
  · simp only [Gives, passage_apply hc, ne_eq, hc, not_false_eq_true, true_and]
    rcases block (construct limit (limit - c.depth)) c with ⟨err | ms, e, rs⟩
    · simp
    · cases he : e.ahead <;> simp [he, and_assoc]

theorem advances_passage (limit : Nat) : Advances (passage limit) := by
  refine advances_of_gives fun c ns d h => ?_
  obtain ⟨hc, ms, e, hb, he⟩ := gives_passage_some.1 h
  have hle := (block_sound (construct_sound limit _) hb).suffix.length_le
  rcases he with ⟨he, -, rfl⟩ | ⟨t, he, -, rfl⟩
  · rw [he]
    exact List.length_pos_iff.2 hc
  · rw [e.ahead_eq he] at hle
    exact hle

/-! ## Documents -/

namespace Lockstep

variable {L : Lockstep}

/-- a passage, where a remark about a stray token goes together with itself -/
theorem inStep_passage {limit limit' : Nat} (hi : ∀ k, L.InStep (outermost limit k) (outermost limit' k))
    (hr : ∀ t, L.InStep (place >>= fun c => remark (.stray t c.index)) (place >>= fun c => remark (.stray t c.index))) :
    L.InStep (passage limit) (passage limit') := by
  refine inStep_peek_bind fun c hc => ?_
  split
  · exact L.rel_pure _ c
  · refine (inStep_block hi (sound_outermost limit) (sound_outermost limit')).bind (fun ns => ?_) c hc
    refine inStep_peek_bind fun d hd => ?_
    cases ht : d.ahead.head? with
    | none => exact L.rel_pure _ d
    | some t =>
      simp only [← bind_assoc]
      refine L.rel_bind hd (L.rel_bind hd (hr t d hd) fun _ e _ h => rel_step ?_) fun _ e _ _ => L.rel_pure _ e
      obtain rfl : d = e := by simpa [and_assoc] using h
      rintro h
      simp [h] at ht

/-- a whole document -/
theorem document_inStep {limit limit' : Nat} (hi : ∀ k, L.InStep (outermost limit k) (outermost limit' k))
    (hr : ∀ t, L.InStep (place >>= fun c => remark (.stray t c.index)) (place >>= fun c => remark (.stray t c.index))) :
    L.InStep (document limit) (document limit') :=
  (inStep_many (advances_passage limit) (advances_passage limit') (inStep_passage hi hr)).bind fun _ => inStep_pure _

end Lockstep

/-- documents obey, if constructs do and remarks about stray tokens may be made -/
theorem document_obeys {P : ParseError → Prop} {Q : Remark → Prop} (At : Cursor → Prop)
    (hr : ∀ {c d}, At c → c.Reaches d → At d) (he : ∀ {c e}, e.Arises At c → P e) (hq : ∀ q, Q q) {limit : Nat}
    (hi : ∀ k c, At c → Obeys P Q c (outermost limit k c)) (hc : At c) : Obeys P Q c (document limit c) := by
  let L := (obeying (Q := Q) At hr he fun _ => hq _).lockstep
  have constructs (k : Construct) : L.InStep (outermost limit k) (outermost limit k) := hi k
  exact Lockstep.document_inStep constructs (fun _ c _ => obeys_ok (List.forall_mem_singleton.2 (hq _))) c hc

/-! ## Progress -/

theorem forward_outermost (limit : Nat) (k : Construct) : Forward (outermost limit k) :=
  fun c _ => (orderly_construct limit _ k c).reaches

theorem forward_passage (limit : Nat) : Forward (passage limit) :=
  Lockstep.inStep_passage (forward_outermost limit) fun _ c _ => .refl c

theorem forward_document (limit : Nat) : Forward (document limit) :=
  Lockstep.document_inStep (forward_outermost limit) fun _ c _ => .refl c

/-- a document that succeeds has gone over all tokens -/
theorem document_end {limit : Nat} {ns : List Node} (h : Gives (document limit) c ns d) : d.ahead = [] := by
  obtain ⟨nss, hm, -⟩ : ∃ nss, Gives (many (passage limit)) c nss d ∧ nss.flatten = ns := by simpa [document] using h
  refine many_induction (M := fun _ _ d => d.ahead = []) (advances_passage limit) ?_ ?_ hm
  · intro c d hp
    obtain ⟨hc, rfl⟩ := gives_passage_none.1 hp
    exact hc
  · exact fun _ _ _ _ _ _ h => h

/-- where no token is left a document is empty -/
theorem gives_document_nil {limit : Nat} (hc : c.ahead = []) : Gives (document limit) c [] c := by
  have hm : Gives (many (passage limit)) c [] c :=
    many_stop (advances_passage limit) (gives_passage_none.2 ⟨hc, rfl⟩)
  exact gives_bind.2 ⟨[], c, hm, gives_pure.2 ⟨rfl, rfl⟩⟩

/-- a passage takes a token: the block does, or else the token is a stray one -/
theorem takes_passage {limit : Nat} (hc : c.ahead ≠ []) (hl : c.depth < limit) : Takes (passage limit) c := by
  obtain ⟨n, hn⟩ : ∃ n, limit - c.depth = n + 1 := Nat.exists_eq_succ_of_ne_zero (Nat.sub_ne_zero_of_lt hl)
  cases hs : starts c.ahead with
  | true =>
    have hb : Takes (block (construct limit (n + 1))) c := takes_block hs
    rw [Takes] at hb
    rw [Takes, passage_apply hc, hn]
    rcases hr : block (construct limit (n + 1)) c with ⟨err | ns, e, rs⟩ <;> rw [hr] at hb
    · exact hb
    · cases he : e.ahead with
      | nil => simpa only [he] using hb
      | cons t ts =>
        have step : e.Reaches e.next := Cursor.reaches_next (he ▸ List.cons_ne_nil t ts)
        simpa only [he] using hb.trans step
  | false =>
    obtain ⟨t, ts, hts⟩ := List.exists_cons_of_ne_nil hc
    have stop : Gives (fragment (construct limit (n + 1))) c none c :=
      gives_fragment_none.2 ⟨startAt_eq_none_iff.2 hs, rfl⟩
    have hb : Gives (block (construct limit (n + 1))) c [] c :=
      gives_block.2 ⟨[], many_stop (advances_fragment (construct_sound limit _)) stop, rfl⟩
    have hp : Gives (passage limit) c (some ([] ++ [.text t.rawText])) c.next :=
      gives_passage_some.2 ⟨hc, [], c, hn ▸ hb, Or.inr ⟨t, Cursor.head?_ahead hts, rfl, rfl⟩⟩
    rw [Takes, hp.2]
    exact .refl c.next

theorem takes_document {limit : Nat} (hc : c.ahead ≠ []) (hl : c.depth < limit) : Takes (document limit) c := by
  have many : Takes (many (passage limit)) c :=
    (takes_passage hc hl).many (advances_passage limit) (forward_passage limit)
  exact many.bind fun _ => Lockstep.inStep_pure _

end TextGrammar
