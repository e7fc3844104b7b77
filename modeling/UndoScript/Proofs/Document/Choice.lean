/-
# Choosing a line that has content

Where text is needed, a line is chosen among those that have content, with one
draw. That is as good as choosing among all lines until one has content: to
each content as many draws lead either way, as lines of equal content are all
kept, and its chance is the one that trying comes to. Only a document without
content has nothing to choose from, and there trying would not end.

Key theorems: `Document.count_contents`, `Document.ncard_drawsTo_drawLine`,
`Document.ncard_drawsTo_drawContent`, `Document.selects_content`,
`Document.drawContent_same_as_trying`.
-/
import UndoScript.Proofs.Chance.Even
import UndoScript.Proofs.Action.Language

namespace UndoScript
namespace Document

open Sampler

variable {d : Document} {t : Text}

/-! ### How often a content stands in the document -/

/-- A content is kept for each line that has it, -/
theorem count_contents (ht : t ≠ []) :
    d.contents.count t = (d.lines.map Text.content).count t := by
  rw [d.contents_eq, List.count_filter (by simpa using ht)]

/-- and lines without content are left out. -/
theorem count_nil_contents : d.contents.count [] = 0 := by
  rw [List.count_eq_zero, mem_contents_iff]
  exact fun h => h.1 rfl

theorem length_contents_add_count :
    d.contents.length + (d.lines.map Text.content).count [] = d.lines.length := by
  have hall := List.length_eq_countP_add_countP (fun t : Text => !t.isEmpty)
    (l := d.lines.map Text.content)
  have hempty : (d.lines.map Text.content).count [] =
      (d.lines.map Text.content).countP fun t => ¬ (!t.isEmpty) = true := by
    rw [List.count_eq_countP]
    exact List.countP_congr fun t _ => by cases t <;> simp
  rw [hempty, d.contents_eq, ← List.countP_eq_length_filter, ← hall, List.length_map]

/-! ### One draw -/

theorem drawLine_eq :
    d.drawLine = (fun i : Fin d.lines.length => d.lines[i].content) <$> draw d.lines.length := rfl

theorem drawContent_eq (h : d.contents ≠ []) :
    d.drawContent = (fun i : Fin d.contents.length => d.contents[i]) <$> draw d.contents.length := by
  have hempty : ¬ d.contents.isEmpty = true := fun he => h (List.isEmpty_iff.1 he)
  unfold drawContent
  rw [if_neg hempty]
  rfl

theorem drawContent_eq_fail (h : d.contents = []) : d.drawContent = .fail .documentEmpty := by
  unfold drawContent
  rw [h]
  rfl

/-- To a text lead as many draws of lines as lines have it for content, -/
theorem ncard_drawsTo_drawLine (t : Text) :
    (d.drawLine.drawsTo d.lines.length t).ncard = (d.lines.map Text.content).count t := by
  rw [drawLine_eq, drawsTo_map_draw]
  exact ncard_setOf_get d.lines Text.content t

/-- and of contents as are that text. -/
theorem ncard_drawsTo_drawContent (t : Text) :
    (d.drawContent.drawsTo d.contents.length t).ncard = d.contents.count t := by
  by_cases h : d.contents = []
  · rw [drawContent_eq_fail h, drawsTo_fail, h]
    exact Set.ncard_empty _
  · rw [drawContent_eq h, drawsTo_map_draw]
    simpa using ncard_setOf_get d.contents id t

/-! ### Chances -/

theorem chance_drawLine (t : Text) :
    d.drawLine.chance t = (d.lines.map Text.content).count t / d.lines.length := by
  rw [← ncard_drawsTo_drawLine, drawLine_eq, chance_map_draw]

theorem chance_drawContent (t : Text) :
    d.drawContent.chance t = d.contents.count t / d.contents.length := by
  by_cases h : d.contents = []
  · rw [drawContent_eq_fail h, h, List.length_nil, Nat.cast_zero, div_zero]
    rfl
  · rw [← ncard_drawsTo_drawContent, drawContent_eq h, chance_map_draw]

theorem miss_drawLine : d.drawLine.miss (· ≠ []) = d.drawLine.chance [] := by
  simp [miss, chance]

theorem lines_ne_nil (h : d.contents ≠ []) : d.lines ≠ [] := by
  intro hnil
  rw [d.contents_eq, hnil] at h
  exact h rfl

/-- What is not missed is the share of the lines that have content. -/
theorem one_sub_miss (h : d.contents ≠ []) :
    1 - d.drawLine.miss (· ≠ []) = d.contents.length / d.lines.length := by
  have hlines : (d.lines.length : ℚ) ≠ 0 := by simpa using lines_ne_nil h
  have hsum : (d.lines.length : ℚ) = d.contents.length + (d.lines.map Text.content).count [] := by
    exact_mod_cast length_contents_add_count.symm
  rw [miss_drawLine, chance_drawLine, eq_div_iff hlines, sub_mul, div_mul_cancel₀ _ hlines, hsum]
  ring

theorem miss_lt_one (h : d.contents ≠ []) : d.drawLine.miss (· ≠ []) < 1 := by
  have hpos : 0 < d.contents.length := List.length_pos_iff.2 h
  have hlines : 0 < d.lines.length := List.length_pos_iff.2 (lines_ne_nil h)
  have hshare : 0 < 1 - d.drawLine.miss (· ≠ []) := by
    rw [one_sub_miss h]
    positivity
  linarith

/-- **Choosing content selects from choosing lines.** -/
theorem selects_content (d : Document) : Selects (· ≠ []) d.drawContent d.drawLine where
  chance_of_good t ht := by
    rw [chance_drawLine, chance_drawContent, ← count_contents ht]
    by_cases h : d.contents = []
    · simp [h]
    · have hpos : (d.contents.length : ℚ) ≠ 0 := by simpa using h
      rw [one_sub_miss h, div_mul_div_comm, mul_comm, mul_div_mul_right _ _ hpos]
  chance_of_bad t ht := by
    rw [chance_drawContent, not_not.1 ht, count_nil_contents, Nat.cast_zero, zero_div]

/-! ### What a choice comes to -/

/-- Every draw of a line leads to its content, -/
theorem mem_drawsTo_drawLine (i : Fin d.lines.length) :
    i ∈ d.drawLine.drawsTo d.lines.length d.lines[i].content := by
  rw [drawLine_eq, drawsTo_map_draw]
  rfl

/-- and every draw of a content to that. -/
theorem mem_drawsTo_drawContent (i : Fin d.contents.length) :
    i ∈ d.drawContent.drawsTo d.contents.length d.contents[i] := by
  rw [drawContent_eq (List.ne_nil_of_length_pos i.pos), drawsTo_map_draw]
  rfl

/-- Choosing fails without a draw exactly if there is no content. -/
theorem run_drawContent_eq_iff {σ : Type} [Source σ] (s : σ) :
    d.drawContent.run s = (.error .documentEmpty, s) ↔ d.contents = [] := by
  by_cases h : d.contents = []
  · rw [drawContent_eq_fail h]
    exact iff_of_true rfl h
  · rw [drawContent_eq h, run_map_draw (List.length_pos_iff.2 h)]
    simp [h]

/-- **Choosing content is trying lines until one has content.** Each draw of a content leads to a
text that is not empty and each draw of a line to some text, and to a text that is not empty as many
draws lead of either kind; none leads from contents to the empty text. If draws are even, the chance
that some tries have come to a text is its chance as a content, but for the chance that all of them
were empty, and goes to it if there is content. Choosing content fails, and draws nothing, exactly if
there is none, and that is exactly if no draw of a line leads to a text that is not empty. -/
theorem drawContent_same_as_trying (d : Document) :
    (∀ i, ∃ t ≠ [], i ∈ d.drawContent.drawsTo d.contents.length t) ∧
    (∀ i, ∃ t, i ∈ d.drawLine.drawsTo d.lines.length t) ∧
    (∀ t ≠ [], (d.drawContent.drawsTo d.contents.length t).ncard =
      (d.drawLine.drawsTo d.lines.length t).ncard) ∧
    ¬ d.drawContent.Yields [] ∧
    (∀ tries t, (d.drawLine.firstGood (· ≠ []) tries).chance (some t) =
      (1 - d.drawLine.chance [] ^ tries) * d.drawContent.chance t) ∧
    (∀ tries, (d.drawLine.firstGood (· ≠ []) tries).chance none = d.drawLine.chance [] ^ tries) ∧
    (d.hasContent = true → d.drawLine.chance [] < 1 ∧ ∀ t,
      Filter.Tendsto (fun tries => (d.drawLine.firstGood (· ≠ []) tries).chance (some t))
        Filter.atTop (nhds (d.drawContent.chance t))) ∧
    (∀ (σ : Type) [Source σ] (s : σ),
      d.drawContent.run s = (.error .documentEmpty, s) ↔ d.hasContent = false) ∧
    (d.hasContent = false ↔ ∀ t, d.drawLine.Yields t → t = []) := by
  have hselects := selects_content d
  have hcontents : d.hasContent = false ↔ d.contents = [] := by simp [hasContent]
  have hne (h : d.hasContent = true) : d.contents ≠ [] := by simpa [hasContent] using h
  refine ⟨fun i => ?_, fun i => ⟨_, mem_drawsTo_drawLine i⟩, fun t ht => ?_, fun h => ?_,
    fun tries t => ?_, fun tries => ?_, fun h => ⟨?_, fun t => ?_⟩,
    fun σ _ s => (run_drawContent_eq_iff s).trans hcontents.symm, ?_⟩
  · have hcontent : d.IsContent d.contents[i] := mem_contents_iff.1 (List.getElem_mem _)
    exact ⟨d.contents[i], hcontent.1, mem_drawsTo_drawContent i⟩
  · rw [ncard_drawsTo_drawContent, ncard_drawsTo_drawLine, count_contents ht]
  · exact (yields_drawContent.1 h).1 rfl
  · rw [← miss_drawLine, hselects.chance_firstGood]
  · rw [← miss_drawLine, chance_firstGood_none]
  · rw [← miss_drawLine]
    exact miss_lt_one (hne h)
  · exact hselects.tendsto_chance_firstGood (miss_lt_one (hne h)) t
  · rw [hasContent_eq_false_iff]
    simp only [drawLine, yields_map, yields_choose]
    constructor
    · rintro h t ⟨line, hline, rfl⟩
      exact h line hline
    · intro h line hline
      exact h line.content ⟨line, hline, rfl⟩

/-- Two of three contents are one letter, though no two of the four lines are equal. -/
theorem drawContent_same_as_trying_of_equal_contents :
    (ofText "a\n\na\r\nb").hasContent = true ∧ ("a" : Text) ≠ [] ∧
    ((ofText "a\n\na\r\nb").drawContent.drawsTo 3 "a").ncard =
      ((ofText "a\n\na\r\nb").drawLine.drawsTo 4 "a").ncard ∧
    Filter.Tendsto
      (fun tries => ((ofText "a\n\na\r\nb").drawLine.firstGood (· ≠ []) tries).chance (some "a"))
      Filter.atTop (nhds (2 / 3)) := by
  have hcontent : (ofText "a\n\na\r\nb").hasContent = true := by decide
  have hne : ("a" : Text) ≠ [] := by decide
  have hchance : (ofText "a\n\na\r\nb").drawContent.chance "a" = 2 / 3 := by
    have htwo : (ofText "a\n\na\r\nb").contents.count ("a" : Text) = 2 := by decide
    have hthree : (ofText "a\n\na\r\nb").contents.length = 3 := by decide
    rw [chance_drawContent, htwo, hthree]
    norm_num
  obtain ⟨-, -, hcount, -, -, -, htrying, -, -⟩ := drawContent_same_as_trying (ofText "a\n\na\r\nb")
  exact ⟨hcontent, hne, hcount "a" hne, hchance ▸ (htrying hcontent).2 "a"⟩

end Document
end UndoScript
