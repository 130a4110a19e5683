/-
The log of a parse.

Remarks are made at three places: about a colon, about a hash at the end, and at the top level about a token that
nothing starts with. The last ones follow the tokens: `StraysFrom tokens i rs` says that the stray tokens that `rs` is
about stand in `tokens` one behind the other, from index `i` on. A passage keeps this for whatever is remarked behind it,
also if it fails (`straysFrom_passage`), and so do passages (`straysFrom_document`). Where a run succeeds, a lone hash is
only remarked on at the end (`Told`), and nothing more is remarked on there.

Result:
- `log_tells_run`: the levels of the entries, the order of the stray tokens, and the lone hash.
-/
import TextGrammar.Proofs.LoneHash

namespace TextGrammar

open TextGrammar.Parser

/-! ## Stray tokens -/

/-- the index of the stray token that the remark is about -/
def Remark.strayIndex? : Remark → Option Nat
  | .stray _ i => some i
  | _ => none

/-- the index of the stray token that the entry is about -/
def Notice.strayIndex? : Notice → Option Nat
  | .debug r => r.strayIndex?
  | .error _ => none

/-- the stray tokens stand in the list one behind the other, from index `i` on, and nothing starts with one of them -/
def StraysFrom (tokens : List Token) : Nat → List Remark → Prop
  | _, [] => True
  | i, .stray t j :: rs =>
    i ≤ j ∧ tokens[j]? = some t ∧ starts (tokens.drop j) = false ∧ StraysFrom tokens (j + 1) rs
  | i, _ :: rs => StraysFrom tokens i rs

section

variable {tokens : List Token} {i j : Nat} {r : Remark} {rs qs : List Remark} {t : Token}

theorem straysFrom_cons (h : r.isStray = false) : StraysFrom tokens i (r :: rs) ↔ StraysFrom tokens i rs := by
  cases r with
  | stray t j => cases h
  | _ => exact Iff.rfl

theorem straysFrom_append (h : ∀ r ∈ qs, r.isStray = false) :
    StraysFrom tokens i (qs ++ rs) ↔ StraysFrom tokens i rs := by
  induction qs with
  | nil => exact Iff.rfl
  | cons q qs ih =>
    obtain ⟨hq, hqs⟩ := List.forall_mem_cons.1 h
    exact (straysFrom_cons hq).trans (ih hqs)

theorem StraysFrom.mono (h : StraysFrom tokens j rs) (hij : i ≤ j) : StraysFrom tokens i rs := by
  induction rs with
  | nil => trivial
  | cons r rs ih =>
    cases r with
    | stray t k => exact ⟨Nat.le_trans hij h.1, h.2⟩
    | _ => exact ih h

/-- every stray token is the one at its index, and nothing starts there -/
theorem StraysFrom.stands (h : StraysFrom tokens i rs) (hm : .stray t j ∈ rs) :
    tokens[j]? = some t ∧ starts (tokens.drop j) = false := by
  induction rs generalizing i with
  | nil => exact absurd hm List.not_mem_nil
  | cons r rs ih =>
    cases r with
    | stray u k =>
      obtain ⟨-, hu, hs, hrs⟩ := h
      rcases List.mem_cons.1 hm with heq | hm
      · cases heq
        exact ⟨hu, hs⟩
      · exact ih hrs hm
    | _ => exact ih h ((List.mem_cons.1 hm).resolve_left (by simp))

theorem StraysFrom.le (h : StraysFrom tokens i rs) (hj : j ∈ rs.filterMap Remark.strayIndex?) : i ≤ j := by
  induction rs generalizing i with
  | nil => exact absurd hj List.not_mem_nil
  | cons r rs ih =>
    cases r with
    | stray t k =>
      rcases List.mem_cons.1 hj with rfl | hj
      · exact h.1
      · exact Nat.le_trans h.1 (Nat.le_of_succ_le (ih h.2.2.2 hj))
    | _ => exact ih h hj

theorem StraysFrom.increasing (h : StraysFrom tokens i rs) :
    (rs.filterMap Remark.strayIndex?).Pairwise (· < ·) := by
  induction rs generalizing i with
  | nil => exact List.Pairwise.nil
  | cons r rs ih =>
    cases r with
    | stray t k => exact List.pairwise_cons.2 ⟨fun j hj => h.2.2.2.le hj, ih h.2.2.2⟩
    | _ => exact ih h

end

/-- a token that nothing starts with is no hash, colon, text or number. It is a square bracket that opens only at the
end. -/
theorem kind_of_starts {t : Token} {ts : List Token} (h : starts (t :: ts) = false) :
    t.kind ∉ [Kind.mark .hash, .mark .colon, .text, .number] ∧ (t.kind = .mark .openSquare → ts = []) := by
  cases hc : t.isControl with
  | true => cases t <;> simp_all [Token.isControl, Token.kind]
  | false =>
    rcases leftOver_of_starts h hc with hm | ⟨rfl, hts⟩
    · simp only [List.map_cons, List.map_nil, List.mem_cons, List.not_mem_nil, or_false] at hm
      rcases hm with rfl | rfl | rfl | rfl | rfl <;> simp [Token.kind]
    · exact ⟨by simp [Token.kind], fun _ => hts⟩

/-! ## Runs -/

theorem Cursor.Reaches.index_le {c d : Cursor} (h : c.Reaches d) : c.index ≤ d.index := by
  obtain ⟨taken, -, hi, -⟩ := h
  omega

section

variable {limit : Nat} {tokens : List Token} {c : Cursor} {rs : List Remark}

/-- what is remarked behind a passage follows what the passage itself remarks on, whether it fails or not -/
theorem straysFrom_passage (hc : c.ahead = tokens.drop c.index)
    (h : StraysFrom tokens (passage limit c).cursor.index rs) :
    StraysFrom tokens c.index ((passage limit c).remarks ++ rs) := by
  by_cases hn : c.ahead = []
  · rw [passage_nil hn] at h ⊢
    exact h
  · have hblock := orderly_block limit (limit - c.depth) c
    rw [passage_apply hn] at h ⊢
    rcases hr : block (construct limit (limit - c.depth)) c with ⟨err | ns, e, qs⟩ <;> rw [hr] at hblock h
    · exact (straysFrom_append hblock.remarks).2 (h.mono hblock.reaches.index_le)
    · have hdrop := hblock.reaches.ahead_eq_drop hc
      have hd := block_sound (construct_sound limit _) ⟨by rw [hr], by rw [hr]⟩
      cases he : e.ahead with
      | nil =>
        simp only [he] at h ⊢
        exact (straysFrom_append hblock.remarks).2 (h.mono hblock.reaches.index_le)
      | cons t us =>
        simp only [he] at h ⊢
        rw [List.append_assoc, straysFrom_append hblock.remarks]
        refine ⟨hblock.reaches.index_le, ?_, ?_, h⟩
        · rw [← List.head?_drop, ← hdrop, he, List.head?_cons]
        · rw [← hdrop]
          exact hd.starts_rest rfl

theorem straysFrom_document (limit : Nat) (ts : List Token) :
    StraysFrom ts 0 (document limit (.start ts)).remarks := by
  rw [remarks_document]
  refine remarks_many_induction (advances_passage limit) (I := fun c => c.ahead = ts.drop c.index)
    (M := fun c rs => StraysFrom ts c.index rs) (c := .start ts) (fun c hc => ?_) (fun c ns d hc hd => ?_) rfl
  · have h : StraysFrom ts c.index ((passage limit c).remarks ++ []) := straysFrom_passage hc trivial
    rwa [List.append_nil] at h
  · have hr : c.Reaches d := hd.2 ▸ forward_passage limit c trivial
    exact ⟨hr.ahead_eq_drop hc, fun rs hrs => straysFrom_passage hc (hd.2 ▸ hrs)⟩

end

/-! ## The log -/

section

variable {limit : Nat} {ts : List Token}

/-- the entries for debugging are the remarks -/
theorem mem_remarks_of_mem_log {r : Remark} (h : .debug r ∈ (build limit ts).log) :
    r ∈ (document limit (.start ts)).remarks := by
  rcases List.mem_append.1 h with h | h
  · obtain ⟨q, hq, heq⟩ := List.mem_map.1 h
    exact Notice.debug.inj heq ▸ hq
  · split at h <;> simp at h

theorem filterMap_log : (build limit ts).log.filterMap Notice.strayIndex? =
    (document limit (.start ts)).remarks.filterMap Remark.strayIndex? := by
  rw [build, Report.ofRun, List.filterMap_append, List.filterMap_map]
  split <;> exact List.append_nil _

/-- an entry about a stray token quotes the token at its index, which nothing starts with -/
theorem stray_of_mem_log {n : Notice} {i : Nat} (hn : n ∈ (build limit ts).log) (hi : n.strayIndex? = some i) :
    ∃ t, ts[i]? = some t ∧ n = .debug (.stray t i) ∧ starts (ts.drop i) = false := by
  cases n with
  | error e => cases hi
  | debug r =>
    cases r with
    | stray t j =>
      obtain rfl := Option.some.inj hi
      obtain ⟨ht, hs⟩ := (straysFrom_document limit ts).stands (mem_remarks_of_mem_log hn)
      exact ⟨t, ht, rfl, hs⟩
    | _ => cases hi

end

/-- **The log tells the run.** Whatever the tokens and the limit are:
- after a parse that succeeds all entries of the log are for debugging; after one that fails, one entry for an error
  comes last, with the wording of the error, and all entries before it are for debugging;
- the entries about stray tokens are in the order of the tokens, and none is about a token twice. Each quotes the source
  of the token at its index. That is no hash, no colon, no text and no number, and it is a square bracket that opens
  only at the very end;
- after a parse that succeeds there is at most one entry about a lone hash, and it is the last one. -/
theorem log_tells_run (limit : Nat) (ts : List Token) :
    (∀ ns, (build limit ts).result = .ok ns → ∀ n ∈ (build limit ts).log, n.level = "DEBUG") ∧
      (∀ e, (build limit ts).result = .error e → ∃ before last, (build limit ts).log = before ++ [last] ∧
        (∀ n ∈ before, n.level = "DEBUG") ∧ last.level = "ERROR" ∧ last.message = e.message) ∧
      ((build limit ts).log.filterMap Notice.strayIndex?).Pairwise (· < ·) ∧
      (∀ n ∈ (build limit ts).log, ∀ i, n.strayIndex? = some i → ∃ t, ts[i]? = some t ∧
        n.message = "Stray " ++ Text.quoted t.rawText ++ " at token " ++ Nat.repr i ++ " kept as text" ∧
        t.kind ∉ [Kind.mark .hash, .mark .colon, .text, .number] ∧
        (t.kind = .mark .openSquare → i + 1 = ts.length)) ∧
      ∀ ns, (build limit ts).result = .ok ns → (build limit ts).log.count (.debug .loneHash) ≤ 1 ∧
        (.debug .loneHash ∈ (build limit ts).log → (build limit ts).log.getLast? = some (.debug .loneHash)) := by
  refine ⟨fun ns h => ?_, fun e h => ?_, ?_, fun n hn i hi => ?_, fun ns h => ?_⟩
  · obtain ⟨rs, hlog, -⟩ := told_build h
    rw [hlog]
    exact List.forall_mem_map.2 fun _ _ => rfl
  · have hdebug : ∀ n ∈ (document limit (.start ts)).remarks.map Notice.debug, n.level = "DEBUG" :=
      List.forall_mem_map.2 fun _ _ => rfl
    refine ⟨_, .error e, ?_, hdebug, rfl, rfl⟩
    have he : (document limit (.start ts)).result = .error e := h
    rw [build, Report.ofRun, he]
  · rw [filterMap_log]
    exact (straysFrom_document limit ts).increasing
  · obtain ⟨t, ht, rfl, hs⟩ := stray_of_mem_log hn hi
    obtain ⟨hlt, hget⟩ := List.getElem?_eq_some_iff.1 ht
    rw [List.drop_eq_getElem_cons hlt, hget] at hs
    obtain ⟨hkind, hopen⟩ := kind_of_starts hs
    exact ⟨t, ht, rfl, hkind, fun hk => Nat.le_antisymm hlt (List.drop_eq_nil_iff.1 (hopen hk))⟩
  · obtain ⟨rs, hlog, htold⟩ := told_build h
    obtain ⟨-, -, hle⟩ := htold.exists_pairs
    rw [hlog, count_debug, List.getLast?_map]
    refine ⟨hle, fun hm => ?_⟩
    obtain ⟨r, hr, heq⟩ := List.mem_map.1 hm
    obtain rfl := Notice.debug.inj heq
    rw [htold.getLast?_eq hr, Option.map_some]

/-- two stray tokens and a lone hash are remarked on, and a stray token in front of a failure -/
theorem log_tells_run_stray :
    (∃ ts ns, (build 1 ts).result = .ok ns ∧ (build 1 ts).log.filterMap Notice.strayIndex? = [0, 1] ∧
        (build 1 ts).log.getLast? = some (.debug .loneHash) ∧ ∀ n ∈ (build 1 ts).log, n.level = "DEBUG") ∧
      ∃ ts e, (build 1 ts).result = .error e ∧ (build 1 ts).log.filterMap Notice.strayIndex? = [0] ∧
        ∃ before last, (build 1 ts).log = before ++ [last] ∧ (∀ n ∈ before, n.level = "DEBUG") ∧
          last.level = "ERROR" ∧ last.message = e.message := by
  constructor
  · obtain ⟨ts, ns, h⟩ : ∃ ts ns, build 1 ts = ⟨.ok ns, [.debug (.stray (.mark .closeRound) 0),
        .debug (.stray (.mark .comma) 1), .debug .loneHash]⟩ :=
      ⟨[.mark .closeRound, .mark .comma, .mark .hash], [.text ")", .text ",", .text "#"], by rfl⟩
    have hok : (build 1 ts).result = .ok ns := by rw [h]
    obtain ⟨hlevel, -, -, -, hlone⟩ := log_tells_run 1 ts
    exact ⟨ts, ns, hok, by rw [h]; rfl, (hlone ns hok).2 (by rw [h]; simp), hlevel ns hok⟩
  · obtain ⟨ts, e, h⟩ : ∃ ts e, build 1 ts = ⟨.error e, [.debug (.stray (.mark .closeRound) 0), .error e]⟩ :=
      ⟨[.mark .closeRound, .mark .hash, .mark .comma], .missing (.closingHash "") (some (.mark .comma)), by rfl⟩
    have herror : (build 1 ts).result = .error e := by rw [h]
    obtain ⟨-, hlast, -⟩ := log_tells_run 1 ts
    exact ⟨ts, e, herror, by rw [h]; rfl, hlast e herror⟩

end TextGrammar
