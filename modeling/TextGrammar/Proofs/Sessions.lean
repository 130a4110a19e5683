/-
Sessions over one list of tokens.

A session may be given any commands in any order, and a command that fails leaves the cursor where it failed. What keeps
this sound is said once for all commands: every one but `advance` only goes over tokens ahead, and comes back to the
depth at which it began, whether it fails or not (`Command.forward_run`). So between two commands nothing is open and
the tokens ahead are those from the index on (`Between`).

- `Between.step`: what one command does there, and `between_cursorAfter`: so behind any commands.
- `Between.ends_or_advances`: a document that fails there has taken a token, so documents that fail come to an end
  (`Between.exists_documents`).

Result:
- `sessions_recover`: behind any commands every further one keeps the depth, goes forward and stays within the tokens,
  unless it is `advance`; and documents, one after the other, fail no more often than there are tokens left.
-/
import TextGrammar.Proofs.Passage
import TextGrammar.Session

namespace TextGrammar.Session

open TextGrammar.Parser

variable {limit : Nat} {ts : List Token} {c : Cursor}

/-! ## Commands -/

/-- every command but `advance` is put together from what a lockstep keeps -/
theorem Command.inStep_run {L : Lockstep} (constructs : ∀ k, L.InStep (outermost limit k) (outermost limit k))
    (strays : ∀ t, L.InStep (place >>= fun c => remark (.stray t c.index))
      (place >>= fun c => remark (.stray t c.index)))
    {command : Command} (h : command ≠ .advance) : L.InStep (command.run limit) (command.run limit) := by
  have sound := sound_outermost limit
  cases command with
  | document => exact (Lockstep.document_inStep constructs strays).map _
  | fragment => exact (Lockstep.inStep_fragment constructs).map _
  | block => exact (Lockstep.inStep_block constructs sound sound).map _
  | blockList => exact (Lockstep.inStep_blockList constructs sound sound).map _
  | construct k => exact (constructs k).map _
  | weight => exact Lockstep.inStep_weight.map _
  | condition => exact (Lockstep.inStep_condition constructs sound sound).map _
  | advance => exact absurd rfl h
  | found => exact Lockstep.inStep_peek_bind fun c _ => L.rel_pure _ c
  | optionalText => exact Lockstep.inStep_optionalText.map _
  | requireText message => exact (Lockstep.inStep_requireText (by simp)).map _
  | nextIs k =>
    have next : L.InStep (Parser.nextIs k) (Parser.nextIs k) := Lockstep.inStep_peek_bind fun c _ => L.rel_pure _ c
    exact next.map _
  | skip k => exact (Lockstep.inStep_skip k).bind fun _ => Lockstep.inStep_pure _
  | expect k message =>
    have expected : L.InStep (Parser.expect k) (Parser.expect k) := Lockstep.inStep_expect k
    cases message with
    | none => exact expected.bind fun _ => Lockstep.inStep_pure _
    | some message =>
      have required : L.InStep (Parser.require k (.custom message)) (Parser.require k (.custom message)) :=
        Lockstep.inStep_require k (by simp)
      rw [Command.run]
      split
      · exact expected.bind fun _ => Lockstep.inStep_pure _
      · exact required.bind fun _ => Lockstep.inStep_pure _

/-- every command but `advance` goes over tokens ahead, also if it fails -/
theorem Command.forward_run {command : Command} (h : command ≠ .advance) : Forward (command.run limit) :=
  Command.inStep_run (forward_outermost limit) (fun _ c _ => .refl c) h

/-- what a command that leads from `c` to `d` keeps, in a session over the tokens -/
structure Command.Keeps (ts : List Token) (command : Command) (c d : Cursor) : Prop where
  depth : d.depth = 0
  forward : c.index ≤ d.index
  within : command ≠ .advance → c.index ≤ ts.length → d.index ≤ ts.length

/-! ## Between commands -/

/-- a place between two commands over the tokens: nothing is open, and ahead are the tokens from the index on -/
structure Between (ts : List Token) (c : Cursor) : Prop where
  depth : c.depth = 0
  ahead : c.ahead = ts.drop c.index

theorem between_start (ts : List Token) : Between ts (.start ts) := ⟨rfl, rfl⟩

theorem Between.next (h : Between ts c) : Between ts c.next := by
  refine ⟨h.depth, ?_⟩
  rw [Cursor.next, h.ahead, List.tail_drop]

theorem Between.reaches {d : Cursor} (h : Between ts c) (hr : c.Reaches d) : Between ts d :=
  ⟨hr.depth_eq.trans h.depth, hr.ahead_eq_drop h.ahead⟩

/-- tokens are left in front of the end, and only there -/
theorem Between.ahead_eq_nil_iff (h : Between ts c) : c.ahead = [] ↔ ts.length ≤ c.index := by
  rw [h.ahead, List.drop_eq_nil_iff]

/-- a run over tokens ahead does not leave them -/
theorem Between.index_le {d : Cursor} (h : Between ts c) (hr : c.Reaches d) :
    c.index ≤ d.index ∧ (c.index ≤ ts.length → d.index ≤ ts.length) := by
  obtain ⟨taken, ha, hi, -⟩ := hr
  have hlen : (ts.drop c.index).length = (taken ++ d.ahead).length := congrArg List.length (h.ahead.symm.trans ha)
  rw [List.length_drop, List.length_append] at hlen
  constructor <;> omega

/-- one command leads from a place between commands to another one -/
theorem Between.step (h : Between ts c) (command : Command) :
    Between ts (command.run limit c).cursor ∧ command.Keeps ts c (command.run limit c).cursor := by
  by_cases hadvance : command = .advance
  · subst hadvance
    have hcursor : (Command.advance.run limit c).cursor = c.next := rfl
    rw [hcursor]
    exact ⟨h.next, h.depth, Nat.le_succ c.index, fun hn => absurd rfl hn⟩
  · have hr : c.Reaches (command.run limit c).cursor := Command.forward_run hadvance c trivial
    have hb := h.reaches hr
    obtain ⟨hforward, hwithin⟩ := h.index_le hr
    exact ⟨hb, hb.depth, hforward, fun _ => hwithin⟩

/-! ## Sessions -/

/-- where a session is behind some commands -/
def cursorAfter (limit : Nat) (c : Cursor) (commands : List Command) : Cursor :=
  ((run limit c commands).getLast?.map Run.cursor).getD c

theorem cursorAfter_cons (limit : Nat) (c : Cursor) (command : Command) (rest : List Command) :
    cursorAfter limit c (command :: rest) = cursorAfter limit (command.run limit c).cursor rest := by
  rw [cursorAfter, run, List.getLast?_cons]
  cases h : (run limit (command.run limit c).cursor rest).getLast? <;> simp [cursorAfter, h]

/-- a session goes on from where it was left -/
theorem run_append (limit : Nat) (c : Cursor) (commands rest : List Command) :
    run limit c (commands ++ rest) = run limit c commands ++ run limit (cursorAfter limit c commands) rest := by
  induction commands generalizing c with
  | nil => rfl
  | cons command commands ih => rw [List.cons_append, run, ih, cursorAfter_cons, run, List.cons_append]

theorem between_cursorAfter (h : Between ts c) (commands : List Command) :
    Between ts (cursorAfter limit c commands) := by
  induction commands generalizing c with
  | nil => exact h
  | cons command commands ih =>
    rw [cursorAfter_cons]
    exact ih (h.step command).1

/-! ## Documents one after the other -/

/-- a document goes on to the end, or fails behind a token at least -/
theorem Between.ends_or_advances (h : Between ts c) (hl : 0 < limit) (hc : c.index ≤ ts.length) :
    (∃ ns, (document limit c).result = .ok ns) ∧ (document limit c).cursor.index = ts.length ∨
      (∃ e, (document limit c).result = .error e) ∧ c.index < (document limit c).cursor.index := by
  have hr : c.Reaches (document limit c).cursor := forward_document limit c trivial
  cases hresult : (document limit c).result with
  | ok ns =>
    have hend : (document limit c).cursor.ahead = [] := document_end ⟨hresult, rfl⟩
    have hge := (h.reaches hr).ahead_eq_nil_iff.1 hend
    exact Or.inl ⟨⟨ns, rfl⟩, Nat.le_antisymm ((h.index_le hr).2 hc) hge⟩
  | error e =>
    have hahead : c.ahead ≠ [] := by
      intro hnil
      rw [(gives_document_nil hnil).1] at hresult
      cases hresult
    have htakes : c.next.Reaches (document limit c).cursor :=
      takes_document hahead (h.depth ▸ hl)
    exact Or.inr ⟨⟨e, rfl⟩, (h.next.index_le htakes).1⟩

/-- documents one after the other fail at most once for each token that is left, and then one succeeds -/
theorem Between.exists_documents (h : Between ts c) (hl : 0 < limit) (hc : c.index ≤ ts.length) :
    ∃ failed last, run limit c (.replicate (failed.length + 1) .document) = failed ++ [last] ∧
      (∀ r ∈ failed, ∃ e, r.result = .error e) ∧ failed.length ≤ ts.length - c.index ∧
      (∃ ns, last.result = .ok (.nodes ns)) ∧ last.cursor.index = ts.length := by
  -- on the tokens that are left: a document that fails has taken one of them
  induction hn : ts.length - c.index using Nat.strongRecOn generalizing c with
  | ind n ih =>
    subst hn
    have hresult : (Command.document.run limit c).result = (document limit c).result.map .nodes := rfl
    rcases h.ends_or_advances hl hc with ⟨⟨ns, hok⟩, hend⟩ | ⟨⟨e, herror⟩, hlt⟩
    · refine ⟨[], Command.document.run limit c, rfl, ?_, Nat.zero_le _, ⟨ns, ?_⟩, hend⟩
      · intro r hr
        cases hr
      · rw [hresult, hok]
        rfl
    · obtain ⟨hb, hkeeps⟩ : Between ts (document limit c).cursor ∧
          Command.document.Keeps ts c (document limit c).cursor := h.step .document
      have hle := hkeeps.within (by decide) hc
      obtain ⟨failed, last, hrun, hfailed, hcount, hlast⟩ := ih _ (by omega) hb hle rfl
      refine ⟨Command.document.run limit c :: failed, last, ?_, ?_, ?_, hlast⟩
      · rw [List.length_cons, List.replicate_succ, run, List.cons_append]
        exact congrArg _ hrun
      · intro r hr
        rcases List.mem_cons.1 hr with rfl | hr
        · exact ⟨e, by rw [hresult, herror]; rfl⟩
        · exact hfailed r hr
      · rw [List.length_cons]
        omega

/-- **Sessions recover.** Under a positive limit, take any session over some tokens and the place `c` that it is left
at. Whatever command comes next, failing or not, comes back to depth zero and does not go back, and only `advance` goes
beyond the end. If tokens are left at `c`, a document from there succeeds exactly at the end or fails further on; and of
documents one after the other at most as many fail as there are tokens left, until one succeeds at the end. -/
theorem sessions_recover (hl : 1 ≤ limit) (ts : List Token) (commands : List Command) :
    let c := cursorAfter limit (.start ts) commands
    (∀ command, run limit (.start ts) (commands ++ [command]) =
          run limit (.start ts) commands ++ [command.run limit c] ∧
        command.Keeps ts c (command.run limit c).cursor) ∧
      (c.index < ts.length →
        ((∃ ns, (document limit c).result = .ok ns) ∧ (document limit c).cursor.index = ts.length ∨
          (∃ e, (document limit c).result = .error e) ∧ c.index < (document limit c).cursor.index) ∧
        ∃ failed last, run limit c (.replicate (failed.length + 1) .document) = failed ++ [last] ∧
          (∀ r ∈ failed, ∃ e, r.result = .error e) ∧ failed.length ≤ ts.length - c.index ∧
          (∃ ns, last.result = .ok (.nodes ns)) ∧ last.cursor.index = ts.length) := by
  intro c
  have hb : Between ts c := between_cursorAfter (between_start ts) commands
  refine ⟨fun command => ⟨?_, (hb.step command).2⟩, fun hc => ?_⟩
  · exact run_append limit (.start ts) commands [command]
  · exact ⟨hb.ends_or_advances hl (Nat.le_of_lt hc), hb.exists_documents hl (Nat.le_of_lt hc)⟩

/-- a tag and a rule that both lack a name, behind a document that failed in the tag -/
theorem sessions_recover_nameless :
    let ts : List Token := [.mark .openSquare, .mark .colon, .mark .hash, .mark .dot, .mark .comma]
    let c := cursorAfter 1 (.start ts) [.construct .rule, .document]
    c.index = 1 ∧ (∀ command : Command, command.Keeps ts c (command.run 1 c).cursor) ∧
      ∃ failed last, run 1 c (.replicate (failed.length + 1) .document) = failed ++ [last] ∧
        (∀ r ∈ failed, ∃ e, r.result = .error e) ∧ failed.length ≤ 4 ∧
        (∃ ns, last.result = .ok (.nodes ns)) ∧ last.cursor.index = 5 := by
  intro ts c
  have hindex : c.index = 1 := by rfl
  obtain ⟨hstep, hbuilds⟩ := sessions_recover (Nat.le_refl 1) ts [.construct .rule, .document]
  have hlt : c.index < ts.length := hindex ▸ by decide
  exact ⟨hindex, fun command => (hstep command).2, (hbuilds hlt).2⟩

end TextGrammar.Session
