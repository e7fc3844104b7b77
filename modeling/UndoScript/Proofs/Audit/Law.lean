/-
# One opening and one closing

The law of scripts is that there is exactly one opening and one closing: every
command of an opening stands once and before all others, and nothing is saved
or left before the last six commands. A check does not hold scripts to it. It
looks at how an opening starts and at the last six commands, and leaves what
else stands in the opening, and openings and exits among the steps, to pass. So
a script without problems follows the law exactly if these are as they should
be. In the scripts that a session writes they are.

Key definitions: `Audit.OneScript`.
Key theorems: `Audit.oneScript_iff`, `Audit.oneScript_of_scriptParts`,
`Audit.oneScript_iff_of_check`, `Audit.not_oneScript_of_check`.
-/
import UndoScript.Proofs.Audit.Acceptance
import UndoScript.Proofs.Audit.Parts

namespace UndoScript
namespace Audit

/-- The law of scripts, for the keywords of one. -/
structure OneScript (ks : List Keyword) : Prop where
  once : ∀ k ∈ openers, ks.count k ≤ 1
  openFile : ks.count .openFile = 1
  turbo : ks.count .turbo = 1
  /-- A document is opened as binary before it is opened. -/
  binary : ∀ before after, ks = before ++ .openFile :: after → .binary ∉ after
  /-- After any other command there is no opening. -/
  opensFirst : ∀ before k after, ks = before ++ k :: after → k ∉ openers → ∀ l ∈ after, l ∉ openers
  /-- Only the last six commands save and leave. -/
  closesLast : ∀ k ∈ ks.take (ks.length - Problem.closing.length), k ≠ .saveAs ∧ k ≠ .exit

variable {os ss : List Keyword}

theorem closing_not_opens : ∀ k ∈ Problem.closing, k ∉ openers := by decide

/-- What precedes the closing. -/
theorem take_closing (os ss : List Keyword) :
    (os ++ (ss ++ Problem.closing)).take ((os ++ (ss ++ Problem.closing)).length -
      Problem.closing.length) = os ++ ss := by
  rw [← List.append_assoc, List.length_append, Nat.add_sub_cancel, List.take_left]

/-- Keywords of openings are counted in the opening, if none is among the steps. -/
theorem count_opener (hss : ∀ k ∈ ss, k ∉ openers) {k : Keyword} (hk : k ∈ openers) :
    (os ++ (ss ++ Problem.closing)).count k = os.count k := by
  have hsteps : ss.count k = 0 := List.count_eq_zero.2 fun hmem => hss k hmem hk
  have hclosing : Problem.closing.count k = 0 :=
    List.count_eq_zero.2 fun hmem => closing_not_opens k hmem hk
  rw [List.count_append, List.count_append, hsteps, hclosing]
  rfl

/-- What stands once and first does not stand after anything else. -/
theorem not_mem_after_of_once {k l : Keyword} {rest before after : List Keyword}
    (honce : (k :: rest).count k ≤ 1) (h : k :: rest = before ++ l :: after) (hne : k ≠ l) :
    k ∉ after := by
  have hrest : rest.count k = 0 := by
    rw [List.count_cons_self] at honce
    omega
  intro hafter
  cases before with
  | nil => exact hne (List.cons.inj h).1
  | cons k' before =>
    have hmem : k ∈ rest := by
      rw [(List.cons.inj h).2]
      exact List.mem_append_right before (List.mem_cons_of_mem l hafter)
    exact List.count_eq_zero.1 hrest hmem

/-- What follows a keyword that is not in the opening follows the opening. -/
theorem after_subset_of_append_eq {k : Keyword} {rest before after : List Keyword}
    (h : os ++ rest = before ++ k :: after) (hk : k ∉ os) : after ⊆ rest := by
  rcases exists_part_of_append_eq h with ⟨between, rfl, -⟩ | ⟨between, -, rfl⟩
  · exact absurd (List.mem_append_right before List.mem_cons_self) hk
  · exact fun l hl => List.mem_append_right between (List.mem_cons_of_mem k hl)

/-- A script that follows the law has nothing twice in its opening, BINARY only first, and no
opening, saving or leaving among its steps. -/
theorem OneScript.tidy (h : OneScript (os ++ (ss ++ Problem.closing)))
    (hos : ∀ k ∈ os, k ∈ openers) (hstart : IsOpening os)
    (hfirst : ∀ k, (ss ++ Problem.closing).head? = some k → k ∉ openers) :
    os.Nodup ∧ (.binary ∈ os → os.head? = some .binary) ∧
      ∀ k ∈ ss, k ∉ openers ∧ k ≠ .saveAs ∧ k ≠ .exit := by
  refine ⟨?_, fun hbinary => ?_, fun k hk => ?_⟩
  · rw [List.nodup_iff_count_le_one]
    intro k
    by_cases hk : k ∈ os
    · have honce := h.once k (hos k hk)
      rw [List.count_append] at honce
      omega
    · rw [List.count_eq_zero.2 hk]
      exact Nat.zero_le 1
  · rcases hstart with ⟨rest, rfl⟩ | ⟨⟨rest, rfl⟩, -⟩
    · -- OPEN stands first, and BINARY somewhere after it.
      have hafter : .binary ∉ .turbo :: rest ++ (ss ++ Problem.closing) := h.binary [] _ rfl
      have hmem : .binary ∈ .turbo :: rest := by simpa using hbinary
      exact absurd (List.mem_append_left _ hmem) hafter
    · rfl
  · have hlast := h.closesLast k (by rw [take_closing]; exact List.mem_append_right os hk)
    refine ⟨?_, hlast⟩
    obtain ⟨first, rest, rfl⟩ := List.exists_cons_of_ne_nil (List.ne_nil_of_mem hk)
    have hno : first ∉ openers := hfirst first rfl
    rcases List.mem_cons.1 hk with rfl | hk
    · exact hno
    · exact h.opensFirst os first (rest ++ Problem.closing) rfl hno k (List.mem_append_left _ hk)

/-- If an opening has nothing twice and BINARY only first, and none of this is among the steps, the
script follows the law. -/
theorem oneScript_of_tidy (hos : ∀ k ∈ os, k ∈ openers) (hstart : IsOpening os)
    (hnodup : os.Nodup) (hbinary : .binary ∈ os → os.head? = some .binary)
    (hss : ∀ k ∈ ss, k ∉ openers ∧ k ≠ .saveAs ∧ k ≠ .exit) :
    OneScript (os ++ (ss ++ Problem.closing)) := by
  have hsteps : ∀ k ∈ ss, k ∉ openers := fun k hk => (hss k hk).1
  have hrest : ∀ k ∈ ss ++ Problem.closing, k ∉ openers := by
    intro k hk
    rcases List.mem_append.1 hk with hk | hk
    · exact hsteps k hk
    · exact closing_not_opens k hk
  have hmem : .openFile ∈ os ∧ .turbo ∈ os := by
    rcases hstart with hpre | ⟨hpre, -⟩
    · exact ⟨hpre.subset (by decide), hpre.subset (by decide)⟩
    · exact ⟨hpre.subset (by decide), hpre.subset (by decide)⟩
  constructor
  case once =>
    intro k hk
    rw [count_opener hsteps hk]
    exact List.nodup_iff_count_le_one.1 hnodup k
  case openFile =>
    rw [count_opener hsteps (by decide)]
    exact List.count_eq_one_of_mem hnodup hmem.1
  case turbo =>
    rw [count_opener hsteps (by decide)]
    exact List.count_eq_one_of_mem hnodup hmem.2
  case binary =>
    intro before after heq hafter
    have hbin : .binary ∈ before ++ .openFile :: after :=
      List.mem_append_right before (List.mem_cons_of_mem _ hafter)
    rw [← heq] at hbin
    have hfirst : os.head? = some .binary := by
      rcases List.mem_append.1 hbin with hbin | hbin
      · exact hbinary hbin
      · exact absurd (by decide) (hrest _ hbin)
    obtain ⟨rest, rfl⟩ := List.head?_eq_some_iff.1 hfirst
    have honce := List.nodup_iff_count_le_one.1 hnodup .binary
    rw [← count_opener hsteps (by decide)] at honce
    exact not_mem_after_of_once honce heq (by decide) hafter
  case opensFirst =>
    intro before k after heq hk l hl
    have hother : k ∉ os := fun hmem => hk (hos k hmem)
    exact hrest l (after_subset_of_append_eq heq hother hl)
  case closesLast =>
    intro k hk
    rw [take_closing] at hk
    rcases List.mem_append.1 hk with hk | hk
    · have hother : ∀ k ∈ openers, k ≠ .saveAs ∧ k ≠ .exit := by decide
      exact hother k (hos k hk)
    · exact (hss k hk).2

variable {opening steps closing : List Command} {script : Text} {document : Document}
  {target : Option Text}

theorem Passes.keywords_closing (h : Passes document target opening steps closing) :
    keywords closing = Problem.closing := by
  obtain ⟨base, depth, -, hcs⟩ := h.ends
  have hmap := congrArg (List.map Prod.fst) hcs
  rwa [List.map_map] at hmap

/-- **When three sound parts follow the law.** -/
theorem oneScript_iff (h : Passes document target opening steps closing) :
    OneScript (keywords (opening ++ (steps ++ closing))) ↔ (keywords opening).Nodup ∧
      (.binary ∈ keywords opening → (keywords opening).head? = some .binary) ∧
      ∀ k ∈ keywords steps, k ∉ openers ∧ k ≠ .saveAs ∧ k ≠ .exit := by
  have happend (cs ds : List Command) : keywords (cs ++ ds) = keywords cs ++ keywords ds :=
    List.map_append
  have hos : ∀ k ∈ keywords opening, k ∈ openers := by
    intro k hk
    obtain ⟨c, hc, rfl⟩ := List.mem_map.1 hk
    exact h.opens c hc
  have hfirst : ∀ k, (keywords steps ++ Problem.closing).head? = some k → k ∉ openers := by
    intro k hk
    rw [← h.keywords_closing, ← happend, keywords, List.head?_map, Option.map_eq_some_iff] at hk
    obtain ⟨c, hc, rfl⟩ := hk
    exact h.longest c hc
  rw [happend, happend, h.keywords_closing]
  constructor
  · exact fun hone => hone.tidy hos h.begins hfirst
  · rintro ⟨hnodup, hbinary, hsteps⟩
    exact oneScript_of_tidy hos h.begins hnodup hbinary hsteps

/-- **Every script that is written follows the law.** -/
theorem oneScript_of_scriptParts {s : Setting} {n : Nat} {ts : List Step}
    (h : s.ScriptParts n opening ts closing) :
    OneScript (keywords (opening ++ ((ts.map Step.commands).flatten ++ closing))) := by
  obtain ⟨opening', steps, closing', heq, hpasses⟩ :=
    problems_eq_nil_iff.1 (h.problems_eq_nil (.inl rfl))
  have hparts := h.parts_eq
  rw [heq, hpasses.parts_eq] at hparts
  obtain ⟨rfl, rfl, rfl⟩ := Parts.mk.injEq .. ▸ hparts
  obtain ⟨utf8, -, hopening⟩ := h.opens
  have hplain : (keywords opening').Nodup ∧
      (.binary ∈ keywords opening' → (keywords opening').head? = some .binary) := by
    rw [keywords_eq hopening]
    unfold Setting.openingPhrases
    split
    · simp
    · cases s.options.matchBrackets <;> cases s.options.toggleUtf8 <;> simp
  have hnone : ∀ d ∈ Category.all, ∀ k ∈ Emission.keywords d,
      k ∉ openers ∧ k ≠ .saveAs ∧ k ≠ .exit := by decide
  refine (oneScript_iff hpasses).2 ⟨hplain.1, hplain.2, fun k hk => ?_⟩
  obtain ⟨c, hc, rfl⟩ := List.mem_map.1 hk
  obtain ⟨m, hwalk⟩ := h.walk
  obtain ⟨m₁, d, g, m₂, hemits, hmem⟩ := hwalk.exists_emits (Int.le_refl 0) c hc
  exact hnone d (by cases d <;> decide) _ (hemits.keyword_mem _ hmem)

/-- **What a check leaves of the law.** A script without problems is commands that start with an
opening and end with the closing. They follow the law of scripts exactly if, besides, the opening
has no keyword twice and BINARY only as its first, and the steps neither open nor save nor leave. -/
theorem oneScript_iff_of_check (h : check script document target = .ok []) :
    ∃ cs, Script.parse script = .ok cs ∧ IsOpening (keywords (parts cs).opening) ∧
      keywords (parts cs).closing = Problem.closing ∧
      (OneScript (keywords cs) ↔ (keywords (parts cs).opening).Nodup ∧
        (.binary ∈ keywords (parts cs).opening →
          (keywords (parts cs).opening).head? = some .binary) ∧
        ∀ k ∈ keywords (parts cs).steps, k ∉ openers ∧ k ≠ .saveAs ∧ k ≠ .exit) := by
  obtain ⟨cs, hcs, hproblems⟩ := check_eq_nil_iff.1 h
  obtain ⟨opening, steps, closing, rfl, hpasses⟩ := problems_eq_nil_iff.1 hproblems
  refine ⟨_, hcs, ?_⟩
  rw [hpasses.parts_eq]
  exact ⟨hpasses.begins, hpasses.keywords_closing, oneScript_iff hpasses⟩

/-- A binary document is opened, changed and saved. -/
theorem oneScript_iff_of_binary :
    let script := Text.ofLines ["BINARY", "OPEN \"a\"", "TURBO 1", "INSERTSTRING \"abcd\"",
      "FIND \"bc\"", "REPLACEONCE \"a\"", "MARK", "CUT", "PASTE", "SAVEAS \"a.test\"", "UNDO 9",
      "SAVEAS \"a.undone\"", "REDO 9", "SAVEAS \"a.redone\"", "EXIT"]
    check script (Document.ofText "abcd") (some "a") = .ok [] ∧
      ∃ cs, Script.parse script = .ok cs ∧ OneScript (keywords cs) ∧
        keywords (parts cs).opening = [.binary, .openFile, .turbo] ∧
        keywords (parts cs).steps =
          [.insertString, .find, .replaceOnce, .mark, .cut, .paste] := by
  intro script
  have hcheck : check script (Document.ofText "abcd") (some "a") = .ok [] := rfl
  obtain ⟨cs, hcs, -, -, hiff⟩ := oneScript_iff_of_check hcheck
  have hparse : Script.parse script = .ok _ := rfl
  obtain rfl := Except.ok.inj (hparse.symm.trans hcs)
  exact ⟨hcheck, _, hcs, hiff.2 ⟨by decide, by decide, by decide⟩, by decide, by decide⟩

/-- **Scripts without problems need not follow the law.** BINARY comes after OPEN in this one, and
the steps open another document and leave. -/
theorem not_oneScript_of_check : ¬ ∀ script document target cs,
    check script document target = .ok [] → Script.parse script = .ok cs →
      OneScript (keywords cs) := by
  intro hlaw
  let script := Text.ofLines ["OPEN \"a\"", "TURBO 1", "BINARY", "MOVESOF", "OPEN \"b\"", "EXIT",
    "SAVEAS \"a.test\"", "UNDO 9", "SAVEAS \"a.undone\"", "REDO 9", "SAVEAS \"a.redone\"", "EXIT"]
  have hcheck : check script (Document.ofText "abcd") (some "a") = .ok [] := rfl
  have hparse : Script.parse script = .ok _ := rfl
  have hopen := (hlaw script _ _ _ hcheck hparse).openFile
  exact absurd hopen (by decide)

end Audit
end UndoScript
