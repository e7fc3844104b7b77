/-
# The extension is what follows the last point

A path has an extension if it ends with a point and then one or more small
letters and digits; one line feed after them does not count. There is at most
one such text, and `Path.extension?` finds it. That the path's last part is
looked at first makes no difference, since the extension holds no slash: what
the part after the last slash ends with is what the path ends with.

Key definitions: `Path.HasExtension`, `Path.IsLastPart`, `Path.IsExtensionText`,
`Path.NameEndsWith`.
Key theorems: `Path.extension?_eq_some_iff`, `Path.isLastPart_iff`,
`Path.hasExtension_iff`, `Path.NameEndsWith.unique`.
-/
import UndoScript.Action.Extension
import UndoScript.Proofs.Text.Ink

namespace UndoScript

namespace Text

theorem withoutEnding_append (t ending : Text) : withoutEnding ending (t ++ ending) = t := by
  simp [withoutEnding]

theorem withoutEnding_of_not {t ending : Text} (h : ¬ ending <:+ t) : withoutEnding ending t = t := by
  simp [withoutEnding, h]

/-- The ending was there and is gone, or nothing has changed. -/
theorem eq_withoutEnding (t ending : Text) :
    t = withoutEnding ending t ∨ t = withoutEnding ending t ++ ending := by
  by_cases h : ending <:+ t
  · obtain ⟨u, rfl⟩ := h
    exact Or.inr (by rw [withoutEnding_append])
  · exact Or.inl (withoutEnding_of_not h).symm

end Text

namespace Path

/-- The path ends with a point and this text, of small letters and digits. -/
def HasExtension (path e : Text) : Prop :=
  e ≠ [] ∧ (∀ g ∈ e, isExtensionGlyph g = true) ∧
    ∃ before ending, path = before ++ .char '.' :: e ++ ending ∧ (ending = [] ∨ ending = [.newline])

theorem isInk_of_isExtensionGlyph {g : Glyph} (h : isExtensionGlyph g = true) : g.isInk = true := by
  cases g with
  | byte low => cases h
  | char c =>
    simp only [isExtensionGlyph, Bool.or_eq_true, Bool.and_eq_true, decide_eq_true_eq, Char.le_def,
      UInt32.le_iff_toNat_le] at h
    change (97 ≤ c.toNat ∧ c.toNat ≤ 122) ∨ (48 ≤ c.toNat ∧ c.toNat ≤ 57) at h
    simp only [Glyph.isInk, Bool.and_eq_true, decide_eq_true_eq]
    omega

theorem HasExtension.isWord {path e : Text} (h : HasExtension path e) : e.IsWord :=
  ⟨h.1, fun g hg => isInk_of_isExtensionGlyph (h.2.1 g hg)⟩

/-! ### The last part -/

/-- What holds no slash belongs to the last part. -/
theorem lastPart_append {t u : Text} (h : Glyph.char '/' ∉ u) :
    lastPart (t ++ u) = lastPart t ++ u := by
  unfold lastPart
  rw [List.reverse_append, List.takeWhile_append_of_pos, List.reverse_append, List.reverse_reverse]
  intro g hg
  simp only [bne_iff_ne, ne_eq]
  rintro rfl
  exact h (List.mem_reverse.1 hg)

/-- The name is the part of the path after its last slash. -/
def IsLastPart (path name : Text) : Prop :=
  .char '/' ∉ name ∧ (path = name ∨ ∃ dir, path = dir ++ .char '/' :: name)

theorem IsLastPart.lastPart_eq {path name : Text} (h : IsLastPart path name) :
    lastPart path = name := by
  obtain ⟨hslash, rfl | ⟨dir, rfl⟩⟩ := h
  · exact lastPart_append (t := []) hslash
  · rw [List.append_cons, lastPart_append hslash]
    simp [lastPart]

theorem exists_isLastPart (path : Text) : ∃ name, IsLastPart path name := by
  by_cases h : .char '/' ∈ path
  · obtain ⟨after, before, hpath, hslash⟩ := List.eq_append_cons_of_mem (List.mem_reverse.2 h)
    refine ⟨after.reverse, by simpa using hslash, .inr ⟨before.reverse, ?_⟩⟩
    rw [← List.reverse_reverse path, hpath]
    simp
  · exact ⟨path, h, .inl rfl⟩

/-- **A path has one last part.** -/
theorem isLastPart_iff {path name : Text} : IsLastPart path name ↔ lastPart path = name := by
  refine ⟨IsLastPart.lastPart_eq, ?_⟩
  rintro rfl
  obtain ⟨name, hname⟩ := exists_isLastPart path
  rwa [hname.lastPart_eq]

theorem IsLastPart.exists_append {path name : Text} (h : IsLastPart path name) :
    ∃ dir, path = dir ++ name := by
  rcases h.2 with rfl | ⟨dir, rfl⟩
  · exact ⟨[], rfl⟩
  · exact ⟨dir ++ [.char '/'], by simp⟩

/-! ### The extension -/

/-- The longest run of small letters and digits at the end, if a point stands before it. -/
theorem run_eq_iff (t e : Text) :
    ((t.reverse.takeWhile isExtensionGlyph ≠ [] ∧
        (t.reverse.dropWhile isExtensionGlyph).head? = some (.char '.')) ∧
      (t.reverse.takeWhile isExtensionGlyph).reverse = e) ↔
      e ≠ [] ∧ (∀ g ∈ e, isExtensionGlyph g = true) ∧ ∃ stem, t = stem ++ .char '.' :: e := by
  constructor
  · rintro ⟨⟨hne, hpoint⟩, rfl⟩
    have hall := List.all_eq_true.1 (List.all_takeWhile (p := isExtensionGlyph) (l := t.reverse))
    refine ⟨by simpa using hne, fun g hg => hall g (List.mem_reverse.1 hg), ?_⟩
    obtain ⟨back, hback⟩ := List.head?_eq_some_iff.1 hpoint
    refine ⟨back.reverse, ?_⟩
    calc t = (t.reverse.takeWhile isExtensionGlyph ++
          t.reverse.dropWhile isExtensionGlyph).reverse := by
          rw [List.takeWhile_append_dropWhile, List.reverse_reverse]
      _ = back.reverse ++ .char '.' :: (t.reverse.takeWhile isExtensionGlyph).reverse := by
          rw [hback]
          simp
  · rintro ⟨hne, hall, stem, rfl⟩
    have hrev : (stem ++ .char '.' :: e).reverse = e.reverse ++ .char '.' :: stem.reverse := by simp
    have hall' : ∀ g ∈ e.reverse, isExtensionGlyph g = true :=
      fun g hg => hall g (List.mem_reverse.1 hg)
    have hpoint : isExtensionGlyph (.char '.') = false := by decide
    rw [hrev, List.takeWhile_append_of_pos hall', List.dropWhile_append_of_pos hall',
      List.takeWhile_cons_of_neg (by simp [hpoint]), List.dropWhile_cons_of_neg (by simp [hpoint])]
    simp [hne]

/-- An extension and its point hold no slash. -/
theorem slash_not_mem {e : Text} (h : ∀ g ∈ e, isExtensionGlyph g = true) :
    Glyph.char '/' ∉ .char '.' :: e := by
  intro hmem
  rcases List.mem_cons.1 hmem with hpoint | hmem
  · exact absurd hpoint (by decide)
  · exact absurd (h _ hmem) (by decide)

/-- **The extension is found if there is one,** and nothing else is. -/
theorem extension?_eq_some_iff {path e : Text} : extension? path = some e ↔ HasExtension path e := by
  have hfound : extension? path = some e ↔ e ≠ [] ∧ (∀ g ∈ e, isExtensionGlyph g = true) ∧
      ∃ stem, Text.withoutEnding [.newline] (lastPart path) = stem ++ .char '.' :: e := by
    rw [← run_eq_iff]
    simp [extension?]
  rw [hfound]
  refine and_congr_right fun hne => and_congr_right fun hall => ?_
  constructor
  · rintro ⟨stem, hstem⟩
    obtain ⟨dir, hdir⟩ := (isLastPart_iff.2 (rfl : lastPart path = _)).exists_append
    rcases Text.eq_withoutEnding (lastPart path) [.newline] with hlast | hlast
    · refine ⟨dir ++ stem, [], ?_, Or.inl rfl⟩
      rw [hdir, hlast, hstem]
      simp
    · refine ⟨dir ++ stem, [.newline], ?_, Or.inr rfl⟩
      rw [hdir, hlast, hstem]
      simp
  · rintro ⟨before, ending, rfl, hending⟩
    refine ⟨lastPart before, ?_⟩
    have hslash := slash_not_mem hall
    have hlast : ¬ [Glyph.newline] <:+ lastPart before ++ .char '.' :: e := by
      rintro ⟨u, hu⟩
      have hget := congrArg List.getLast? hu
      rw [List.getLast?_concat, List.getLast?_append, List.getLast?_cons_of_ne_nil hne,
        List.getLast?_eq_some_getLast hne, Option.some_or, Option.some.injEq] at hget
      exact absurd (hall _ (List.getLast_mem hne)) (hget ▸ by decide)
    rcases hending with rfl | rfl
    · rw [List.append_nil, lastPart_append hslash, Text.withoutEnding_of_not hlast]
    · have hnewline : Glyph.char '/' ∉ [Glyph.newline] := by decide
      rw [lastPart_append hnewline, lastPart_append hslash, Text.withoutEnding_append]

/-! ### What the last part ends with -/

/-- One or more small letters and digits. -/
def IsExtensionText (e : Text) : Prop :=
  e ≠ [] ∧ ∀ g ∈ e, ∃ c : Char, g = .char c ∧ (('a' ≤ c ∧ c ≤ 'z') ∨ ('0' ≤ c ∧ c ≤ '9'))

/-- The part of the path after its last slash ends with a point and this text, one line feed at the
end not counted. -/
def NameEndsWith (path e : Text) : Prop :=
  ∃ name stem, IsLastPart path name ∧
    (name = stem ++ .char '.' :: e ∨ name = stem ++ .char '.' :: e ++ [.newline])

theorem isExtensionGlyph_iff {g : Glyph} : isExtensionGlyph g = true ↔
    ∃ c : Char, g = .char c ∧ (('a' ≤ c ∧ c ≤ 'z') ∨ ('0' ≤ c ∧ c ≤ '9')) := by
  cases g <;> simp [isExtensionGlyph]

/-- **What a path ends with is what its last part ends with,** if it is an extension. -/
theorem hasExtension_iff {path e : Text} :
    HasExtension path e ↔ IsExtensionText e ∧ NameEndsWith path e := by
  unfold HasExtension IsExtensionText
  simp only [← isExtensionGlyph_iff, and_assoc]
  refine and_congr_right fun hne => and_congr_right fun hall => ?_
  constructor
  · rintro ⟨before, ending, rfl, hending⟩
    have hslash : Glyph.char '/' ∉ .char '.' :: e ++ ending := by
      rw [List.mem_append, not_or]
      refine ⟨slash_not_mem hall, ?_⟩
      rcases hending with rfl | rfl <;> decide
    refine ⟨_, lastPart before, isLastPart_iff.2 rfl, ?_⟩
    rw [List.append_assoc, lastPart_append hslash]
    rcases hending with rfl | rfl
    · exact .inl (by rw [List.append_nil])
    · exact .inr (by rw [List.append_assoc])
  · rintro ⟨name, stem, hpath, hname⟩
    obtain ⟨dir, rfl⟩ := hpath.exists_append
    rcases hname with rfl | rfl
    · exact ⟨dir ++ stem, [], by simp, .inl rfl⟩
    · exact ⟨dir ++ stem, [.newline], by simp, .inr rfl⟩

/-- An extension is found exactly if the last part ends with it. -/
theorem extension?_eq_some_iff_name {path e : Text} (he : IsExtensionText e) :
    extension? path = some e ↔ NameEndsWith path e := by
  rw [extension?_eq_some_iff, hasExtension_iff, and_iff_right he]

/-- **A path has one extension at most.** -/
theorem NameEndsWith.unique {path e e' : Text} (he : IsExtensionText e) (he' : IsExtensionText e')
    (h : NameEndsWith path e) (h' : NameEndsWith path e') : e = e' := by
  rw [← extension?_eq_some_iff_name he] at h
  rw [← extension?_eq_some_iff_name he', h] at h'
  exact Option.some.inj h'

theorem extension?_eq_none {path : Text}
    (h : ∀ e, IsExtensionText e → ¬ NameEndsWith path e) : extension? path = none := by
  rw [Option.eq_none_iff_forall_ne_some]
  intro e he
  obtain ⟨htext, hname⟩ := hasExtension_iff.1 (extension?_eq_some_iff.1 he)
  exact h e htext hname

end Path
end UndoScript
