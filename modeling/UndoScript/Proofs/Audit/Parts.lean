/-
# What a check sees of a whole script

A script is split where its opening, its steps and its closing were put
together, since no step starts like an opening and the closing has six
commands. None of the parts has a problem, whether the target is known to the
check or not.

Key definitions: `Setting.Short`.
Key theorems: `Setting.ScriptParts.parts_eq`, `Setting.ScriptParts.problems_eq_nil`,
`Setting.ScriptParts.forall_phrases`, `Setting.ScriptParts.legible`.
-/
import UndoScript.Proofs.Audit.Shape
import UndoScript.Proofs.Audit.Steps
import UndoScript.Proofs.Session.Generation
import UndoScript.Proofs.Text.Decimal

namespace UndoScript
namespace Audit

variable {s : Setting} {opening steps closing cs : List Command} {utf8 : Nat}
  {target : Option Text}

/-! ### Splitting -/

theorem opens_of_opening (h : opening.map Command.phrase = s.openingPhrases utf8) :
    ∀ c ∈ opening, c.keyword.opens = true := by
  have hphrases : ∀ p ∈ s.openingPhrases utf8, p.1.opens = true := by
    unfold Setting.openingPhrases
    split
    · simp [Keyword.opens]
    · cases s.options.matchBrackets <;> cases s.options.toggleUtf8 <;> simp [Keyword.opens]
  exact Command.forall_of_phrases h hphrases

theorem not_opens_of_closing (h : closing.map Command.phrase = s.closingPhrases) :
    ∀ c ∈ closing, c.keyword.opens = false := by
  have hphrases : ∀ p ∈ s.closingPhrases, p.1.opens = false := by
    simp [Setting.closingPhrases, Keyword.opens]
  exact Command.forall_of_phrases h hphrases

theorem length_of_closing (h : closing.map Command.phrase = s.closingPhrases) :
    closing.length = Problem.closing.length := by
  rw [← List.length_map Command.phrase, h]
  rfl

/-! ### The parts of a script that was generated -/

theorem keywords_eq {ps : List Phrase} (h : cs.map Command.phrase = ps) :
    keywords cs = ps.map Prod.fst := by
  rw [← h, List.map_map]
  rfl

theorem opening_eq_nil (h : cs.map Command.phrase = s.openingPhrases utf8)
    (ht : target = none ∨ target = some s.target) : Audit.opening cs target = [] := by
  have hopen : ∀ c ∈ cs, c.keyword = .openFile → c.argument.operand = .text s.target := by
    have hphrases : ∀ p ∈ s.openingPhrases utf8,
        p.1 = .openFile → p.2.operand = .text s.target := by
      unfold Setting.openingPhrases
      split
      · simp [Argument.operand]
      · cases s.options.matchBrackets <;> cases s.options.toggleUtf8 <;> simp [Argument.operand]
    exact Command.forall_of_phrases h hphrases
  have hmem : Keyword.openFile ∈ keywords cs := by
    rw [keywords_eq h]
    unfold Setting.openingPhrases
    split <;> simp
  have hstart : IsOpening (keywords cs) := by
    rw [keywords_eq h]
    unfold Setting.openingPhrases
    split
    · exact .inr ⟨⟨[], rfl⟩, by simp, by simp⟩
    · exact .inl ⟨_, rfl⟩
  refine opening_eq_nil_iff.2 ⟨hstart, fun t htarget => ?_⟩
  obtain rfl : s.target = t := by
    rcases ht with rfl | rfl
    · cases htarget
    · exact Option.some.inj htarget
  obtain ⟨c, hfind⟩ := exists_find?_of_mem hmem
  have hkeyword : c.keyword = .openFile := by simpa using List.find?_some hfind
  exact ⟨c, hfind, hopen c (List.mem_of_find?_eq_some hfind) hkeyword⟩

theorem isClosing_of_phrases (h : cs.map Command.phrase = s.closingPhrases)
    (ht : target = none ∨ target = some s.target) : IsClosing target cs := by
  refine ⟨s.target, s.options.undoDepth, fun t htarget => ?_, ?_⟩
  · rcases ht with rfl | rfl
    · cases htarget
    · exact Option.some.inj htarget
  · show cs.map ((fun p => (p.1, p.2.operand)) ∘ Command.phrase) = _
    rw [← List.map_map, h]
    rfl

theorem sampled_eq_nil {bound : Nat} (h : ∀ c ∈ cs, s.Admits bound c.phrase) :
    sampled cs s.document = [] := by
  rw [sampled_eq_nil_iff]
  intro c hc hsampler
  obtain ⟨t, ht⟩ := (h c hc).sampled ((takesSample_iff c.keyword).2 hsampler)
  obtain ⟨hne, hholds⟩ := (h c hc).quoted t ht
  exact ⟨t, ht, hne, Document.holds_iff.1 hholds⟩

end Audit

namespace Setting

variable {s : Setting} {n : Nat} {opening closing cs : List Command} {ts : List Step}
  {target : Option Text}

/-- The commands of the steps are admitted. -/
theorem ScriptParts.admits (h : s.ScriptParts n opening ts closing) (bound : Nat)
    (hbound : 126 ≤ bound) (hlines : s.document.lines.length ≤ bound) (hn : n ≤ bound) :
    ∀ c ∈ (ts.map Step.commands).flatten, s.Admits bound c.phrase := by
  obtain ⟨m, hwalk⟩ := h.walk
  have hlength := h.length
  have hcount : Memory.fresh.mutations + ts.length ≤ bound := by
    show (0 : Int) + ts.length ≤ bound
    omega
  exact hwalk.admits hbound hlines (Int.le_refl 0) hcount

/-- **A check finds the parts of a script.** -/
theorem ScriptParts.parts_eq (h : s.ScriptParts n opening ts closing) :
    Audit.parts (opening ++ ((ts.map Step.commands).flatten ++ closing)) =
      ⟨opening, (ts.map Step.commands).flatten, closing⟩ := by
  have hadmits := h.admits (126 + s.document.lines.length + n) (by omega) (by omega)
    (by omega)
  obtain ⟨utf8, -, hopening⟩ := h.opens
  apply Audit.parts_append (Audit.opens_of_opening hopening) _ (Audit.length_of_closing h.closes)
  intro c hc
  rcases List.mem_append.1 (List.mem_of_head? hc) with hc | hc
  · exact (hadmits c hc).not_opens
  · exact Audit.not_opens_of_closing h.closes c hc

/-- **A script has no problems,** whether the target is known or not. -/
theorem ScriptParts.problems_eq_nil (h : s.ScriptParts n opening ts closing)
    (ht : target = none ∨ target = some s.target) :
    Audit.problems (opening ++ ((ts.map Step.commands).flatten ++ closing)) s.document target =
      .ok [] := by
  have hadmits := h.admits (126 + s.document.lines.length + n) (by omega) (by omega)
    (by omega)
  obtain ⟨utf8, -, hopening⟩ := h.opens
  obtain ⟨m, hwalk⟩ := h.walk
  have hclipboard : Audit.clipboard (ts.map Step.commands).flatten = .ok [] :=
    Problem.report_eq_nil_iff.2 (hwalk.notes (Int.le_refl 0)).1
  have hclosing : Audit.closing closing target = .ok [] :=
    Audit.closing_eq_nil_iff.2 (Audit.isClosing_of_phrases h.closes ht)
  rw [Audit.problems_eq_ok_iff, h.parts_eq]
  refine ⟨[], [], hclipboard, hclosing, ?_⟩
  dsimp only
  rw [Audit.opening_eq_nil hopening ht, Audit.sampled_eq_nil hadmits]
  rfl

/-! ### Reading a script -/

/-- What holds of the phrases of openings, one by one. -/
theorem forall_openingPhrases {P : Phrase → Prop} {utf8 : Nat} (hutf8 : utf8 < 2)
    (habsent : ∀ k, P (k, .absent)) (hopen : P (.openFile, .quoted s.target))
    (hturbo : P (.turbo, .number s.options.turbo))
    (hflag : ∀ k, ∀ flag : Nat, flag < 2 → P (k, .number flag)) :
    ∀ p ∈ s.openingPhrases utf8, P p := by
  have hone : P (.autoMatchBracket, .number 1) := hflag _ 1 (by decide)
  unfold openingPhrases
  split
  · simp [habsent, hopen, hturbo]
  · cases s.options.matchBrackets <;> cases s.options.toggleUtf8 <;>
      simp [hopen, hturbo, hone, hflag _ utf8 hutf8]

/-- What holds of the phrases of closings, one by one. -/
theorem forall_closingPhrases {P : Phrase → Prop} (habsent : ∀ k, P (k, .absent))
    (hsaved : ∀ ending ∈ [".test", ".undone", ".redone"],
      P (.saveAs, .quoted (s.savedAs ending)))
    (hdepth : ∀ k, P (k, .number s.options.undoDepth)) : ∀ p ∈ s.closingPhrases, P p := by
  simp only [List.mem_cons, List.not_mem_nil, or_false, forall_eq_or_imp, forall_eq] at hsaved
  simp [closingPhrases, habsent, hsaved, hdepth]

/-- What holds of the phrases of openings, steps and closings holds of all commands of a script. -/
theorem ScriptParts.forall_phrases (h : s.ScriptParts n opening ts closing) {P : Phrase → Prop}
    (habsent : ∀ k, P (k, .absent)) (hopen : P (.openFile, .quoted s.target))
    (hturbo : P (.turbo, .number s.options.turbo))
    (hflag : ∀ k, ∀ flag : Nat, flag < 2 → P (k, .number flag))
    (hsteps : ∀ p, s.Admits (max 126 (max s.document.lines.length n)) p → P p)
    (hsaved : ∀ ending ∈ [".test", ".undone", ".redone"],
      P (.saveAs, .quoted (s.savedAs ending)))
    (hdepth : ∀ k, P (k, .number s.options.undoDepth)) :
    ∀ c ∈ opening ++ ((ts.map Step.commands).flatten ++ closing), P c.phrase := by
  obtain ⟨utf8, hutf8, hopening⟩ := h.opens
  have hopening' := forall_openingPhrases hutf8 habsent hopen hturbo hflag
  have hclosing := forall_closingPhrases habsent hsaved hdepth
  have hadmits := h.admits (max 126 (max s.document.lines.length n)) (by omega) (by omega)
    (by omega)
  intro c hc
  rcases List.mem_append.1 hc with hc | hc
  · exact Command.forall_of_phrases hopening hopening' c hc
  · rcases List.mem_append.1 hc with hc | hc
    · exact hsteps _ (hadmits c hc)
    · exact Command.forall_of_phrases h.closes hclosing c hc

/-- The arguments of a script read back. -/
theorem ScriptParts.readsBack (h : s.ScriptParts n opening ts closing) :
    ∀ c ∈ opening ++ ((ts.map Step.commands).flatten ++ closing), c.phrase.2.ReadsBack := by
  apply h.forall_phrases (P := fun p => p.2.ReadsBack)
  · exact fun _ => trivial
  · trivial
  · exact s.options.turbo_pos.le
  · exact fun _ flag _ => Int.natCast_nonneg flag
  · exact fun _ hp => hp.readsBack
  · exact fun _ _ => trivial
  · exact fun _ => s.options.undoDepth_pos.le

/-- The numbers of a script are short: its length, the lines of the document, and the options. -/
structure Short (s : Setting) (n : Nat) : Prop where
  steps : n < 10 ^ Numeral.limit
  lines : s.document.lines.length < 10 ^ Numeral.limit
  turbo : s.options.turbo < 10 ^ Numeral.limit
  undoDepth : s.options.undoDepth < 10 ^ Numeral.limit

/-- Numbers of eight digits are short. -/
theorem Short.of_lt (hn : n < 10 ^ 8) (hlines : s.document.lines.length < 10 ^ 8)
    (hturbo : s.options.turbo < 10 ^ 8) (hdepth : s.options.undoDepth < 10 ^ 8) : s.Short n :=
  ⟨Numeral.lt_limit hn, Numeral.lt_limit hlines, Numeral.int_lt_limit hturbo,
    Numeral.int_lt_limit hdepth⟩

theorem limit_large : 126 < 10 ^ Numeral.limit := Numeral.lt_limit (by decide)

theorem renders_iff {c : Command} :
    c.Renders ↔ ∀ n, c.phrase.2 = .number n → Numeral.Writable n := by
  unfold Command.Renders
  show _ ↔ ∀ n, c.argument = .number n → _
  cases c.argument <;> simp

/-- **All commands of a script are read back,** if its numbers are short. -/
theorem ScriptParts.legible (h : s.ScriptParts n opening ts closing) (hshort : s.Short n) :
    ∀ c ∈ opening ++ ((ts.map Step.commands).flatten ++ closing), c.Legible := by
  have hbound : max 126 (max s.document.lines.length n) < 10 ^ Numeral.limit :=
    max_lt limit_large (max_lt hshort.lines hshort.steps)
  refine fun c hc => ⟨h.readsBack c hc, renders_iff.2 ?_⟩
  revert c
  apply h.forall_phrases (P := fun p => ∀ k, p.2 = .number k → Numeral.Writable k)
  · exact fun _ _ he => nomatch he
  · exact fun _ he => nomatch he
  · rintro k ⟨⟩
    exact Numeral.writable_of_nonneg_of_lt s.options.turbo_pos.le hshort.turbo
  · rintro _ flag hflag k ⟨⟩
    exact Numeral.writable_of_lt (lt_trans (by omega) limit_large)
  · intro p hp k hk
    have hread := hp.readsBack
    rw [hk] at hread
    have hle := hp.short k hk
    obtain ⟨j, rfl⟩ := Int.eq_ofNat_of_zero_le hread
    exact Numeral.writable_of_lt (lt_of_le_of_lt (by exact_mod_cast hle) hbound)
  · exact fun _ _ _ he => nomatch he
  · rintro _ k ⟨⟩
    exact Numeral.writable_of_nonneg_of_lt s.options.undoDepth_pos.le hshort.undoDepth

end Setting
end UndoScript
