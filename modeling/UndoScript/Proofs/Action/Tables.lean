/-
# The tables speak the language

What actions a category has is read off its table, and with what each action
yields, the groups that the actions of a category can emit are those of
`Emits`, no more and no fewer.

Key definitions: `Action.singles`.
Key theorems: `Action.emits_of_yields`, `Action.exists_yields_of_emits`,
`Action.yields_perform_iff`.
-/
import UndoScript.Proofs.Action.Language

namespace UndoScript
namespace Action

open Sampler

variable {s : Setting} {m m' : Memory} {cs : List Command} {o : Options} {c : Category}
  {k : Keyword} {f : Fault}

/-! ### The tables, kind by kind -/

theorem plain_mem_table : .plain k ∈ table o c ↔
    k ∈ Emission.alone c ∨ (o.binary = false ∧ k ∈ Emission.aloneInText c) := by
  cases c <;> cases h : o.binary <;>
    simp [table, navigation, textNavigation, flags, textFlags, deletion, editing, insertion, h,
      Emission.alone, Emission.aloneInText] <;> grind

theorem counted_mem_table {low count : Nat} : .counted k low count ∈ table o c ↔
    ∃ last, low + count = last + 1 ∧ ((k, low, last) ∈ Emission.ranges c ∨
      (o.binary = false ∧ (k, low, last) ∈ Emission.rangesInText c)) := by
  cases c <;> cases h : o.binary <;>
    simp [table, navigation, textNavigation, flags, textFlags, deletion, editing, insertion, h,
      Emission.ranges, Emission.rangesInText] <;> grind

theorem token_mem_table {t : String} : .token k t ∈ table o c ↔ c = .navigation ∧
    ((k = .gotoBookmark ∧ t = "-") ∨
      (o.binary = false ∧ k = .findRegexp ∧ t = Emission.anyBracket)) := by
  cases c <;> cases h : o.binary <;>
    simp [table, navigation, textNavigation, flags, textFlags, deletion, editing, insertion, h,
      bracketPattern, Emission.anyBracket]

theorem wordMotion_mem_table : .wordMotion k ∈ table o c ↔
    c = .navigation ∧ o.binary = false ∧ k ∈ Emission.wordMotions := by
  cases c <;> cases h : o.binary <;>
    simp [table, navigation, textNavigation, flags, textFlags, deletion, editing, insertion, h,
      Emission.wordMotions]

/-- The actions with a sampler of their own, each with its category. -/
def singles : List (Action × Category) :=
  [(.gotoLine, .navigation), (.adjustView, .navigation), (.clipboard, .clipboard),
   (.replaceFound, .editing), (.replaceMatch, .editing), (.undoThenRedo, .editing),
   (.shift, .editing), (.setSyntax, .editing), (.insertString, .text)]

/-- An action with a sampler of its own has one category, for text and binary alike. -/
theorem single_mem_table : ∀ p ∈ singles, (p.1 ∈ table o c ↔ c = p.2) := by
  cases c <;> cases h : o.binary <;>
    simp [singles, table, navigation, textNavigation, flags, textFlags, deletion, editing,
      insertion, h]

/-! ### What a category yields -/

/-- What an action of a category's table yields, the category emits. -/
theorem emits_of_yields {a : Action} (ha : a ∈ table s.options c)
    (h : (perform s m a).Yields (cs, m')) : Emits s m c (cs.map Command.phrase) m' := by
  cases a with
  | plain k =>
    obtain ⟨hcs, rfl⟩ := yields_plain.1 h
    rw [hcs]
    rcases plain_mem_table.1 ha with hk | ⟨hb, hk⟩
    · exact .alone hk
    · exact .aloneInText hb hk
  | counted k low count =>
    obtain ⟨n, ⟨hlow, hlt⟩, hcs, rfl⟩ := yields_counted.1 h
    rw [hcs]
    obtain ⟨last, hlast, hk | ⟨hb, hk⟩⟩ := counted_mem_table.1 ha
    · exact .range hk hlow (by omega)
    · exact .rangeInText hb hk hlow (by omega)
  | token k t =>
    obtain ⟨-, hcs, rfl⟩ := yields_token.1 h
    rw [hcs]
    obtain ⟨rfl, ⟨rfl, rfl⟩ | ⟨hb, rfl, rfl⟩⟩ := token_mem_table.1 ha
    · exact .lastBookmark
    · exact .brackets hb
  | wordMotion k =>
    obtain ⟨n, hn, hcs, rfl⟩ := yields_wordMotion.1 h
    rw [hcs]
    obtain ⟨rfl, hb, hk⟩ := wordMotion_mem_table.1 ha
    exact .wordMotion hb hk hn
  | gotoLine =>
    obtain ⟨n, ⟨hfirst, hlast⟩, hcs, rfl⟩ := yields_gotoLine.1 h
    rw [hcs]
    obtain rfl := (single_mem_table (.gotoLine, .navigation) (by decide)).1 ha
    exact .gotoLine hfirst hlast
  | adjustView =>
    obtain ⟨height, hheight, side, hside, hcs, rfl⟩ := yields_adjustView.1 h
    rw [hcs]
    obtain rfl := (single_mem_table (.adjustView, .navigation) (by decide)).1 ha
    exact .adjustView hheight hside
  | clipboard =>
    obtain rfl := (single_mem_table (.clipboard, .clipboard) (by decide)).1 ha
    exact .turn (yields_clipboard.1 h)
  | replaceFound =>
    obtain ⟨t, k, u, ht, hu, hk, hcs, rfl⟩ := yields_replaceFound.1 h
    rw [hcs]
    obtain rfl := (single_mem_table (.replaceFound, .editing) (by decide)).1 ha
    exact .replaceFound ht hu hk
  | replaceMatch =>
    obtain ⟨p, hp, k, u, hu, hk, hcs, rfl⟩ := yields_replaceMatch.1 h
    rw [hcs]
    obtain rfl := (single_mem_table (.replaceMatch, .editing) (by decide)).1 ha
    exact .replaceMatch hp hu hk
  | undoThenRedo =>
    obtain ⟨-, depth, hdepth, hcs, rfl⟩ := yields_undoThenRedo.1 h
    rw [hcs]
    obtain rfl := (single_mem_table (.undoThenRedo, .editing) (by decide)).1 ha
    exact .undoThenRedo hdepth
  | shift =>
    obtain ⟨direction, hd, n, hn, unit, hu, hcs, rfl⟩ := yields_shift.1 h
    rw [hcs]
    obtain rfl := (single_mem_table (.shift, .editing) (by decide)).1 ha
    exact .shift hd hn hu
  | setSyntax =>
    obtain ⟨t, ht, hcs, rfl⟩ := yields_setSyntax.1 h
    rw [hcs]
    obtain rfl := (single_mem_table (.setSyntax, .editing) (by decide)).1 ha
    rcases ht with rfl | ht
    · exact .anySyntax
    · exact .syntaxOf ht
  | insertString =>
    obtain ⟨t, ht, hcs, rfl⟩ := yields_insertString.1 h
    rw [hcs]
    obtain rfl := (single_mem_table (.insertString, .text) (by decide)).1 ha
    exact .insertString ht

/-- What a category emits, an action of its table yields. -/
theorem exists_yields_of_emits (hm : 0 ≤ m.mutations)
    (h : Emits s m c (cs.map Command.phrase) m') :
    ∃ a ∈ table s.options c, (perform s m a).Yields (cs, m') := by
  have hsingle : ∀ a, (a, c) ∈ singles → a ∈ table s.options c :=
    fun a ha => (single_mem_table (a, c) ha).2 rfl
  generalize hg : cs.map Command.phrase = g at h
  cases h with
  | alone hk => exact ⟨_, plain_mem_table.2 (.inl hk), yields_plain.2 ⟨hg, rfl⟩⟩
  | aloneInText hb hk => exact ⟨_, plain_mem_table.2 (.inr ⟨hb, hk⟩), yields_plain.2 ⟨hg, rfl⟩⟩
  | @range _ k first last n hk hfirst hlast =>
    refine ⟨.counted k first (last + 1 - first), counted_mem_table.2 ⟨last, by omega, .inl hk⟩, ?_⟩
    exact yields_counted.2 ⟨n, ⟨hfirst, by omega⟩, hg, rfl⟩
  | @rangeInText _ k first last n hb hk hfirst hlast =>
    refine ⟨.counted k first (last + 1 - first),
      counted_mem_table.2 ⟨last, by omega, .inr ⟨hb, hk⟩⟩, ?_⟩
    exact yields_counted.2 ⟨n, ⟨hfirst, by omega⟩, hg, rfl⟩
  | gotoLine hfirst hlast =>
    exact ⟨.gotoLine, hsingle _ (by decide), yields_gotoLine.2 ⟨_, ⟨hfirst, hlast⟩, hg, rfl⟩⟩
  | lastBookmark =>
    refine ⟨.token .gotoBookmark "-", token_mem_table.2 ⟨rfl, .inl ⟨rfl, rfl⟩⟩, ?_⟩
    exact yields_token.2 ⟨by decide, hg, rfl⟩
  | adjustView hheight hside =>
    refine ⟨.adjustView, hsingle _ (by decide), ?_⟩
    exact yields_adjustView.2 ⟨_, hheight, _, hside, hg, rfl⟩
  | wordMotion hb hk hn =>
    refine ⟨_, wordMotion_mem_table.2 ⟨rfl, hb, hk⟩, ?_⟩
    exact yields_wordMotion.2 ⟨_, hn, hg, rfl⟩
  | brackets hb =>
    refine ⟨.token .findRegexp Emission.anyBracket,
      token_mem_table.2 ⟨rfl, .inr ⟨hb, rfl, rfl⟩⟩, ?_⟩
    exact yields_token.2 ⟨by decide, hg, rfl⟩
  | turn hturn =>
    exact ⟨.clipboard, hsingle _ (by decide), yields_clipboard.2 (hg ▸ hturn)⟩
  | replaceFound ht hu hk =>
    refine ⟨.replaceFound, hsingle _ (by decide), ?_⟩
    exact yields_replaceFound.2 ⟨_, _, _, ht, hu, hk, hg, rfl⟩
  | replaceMatch hp hu hk =>
    refine ⟨.replaceMatch, hsingle _ (by decide), ?_⟩
    exact yields_replaceMatch.2 ⟨_, hp, _, _, hu, hk, hg, rfl⟩
  | undoThenRedo hdepth =>
    refine ⟨.undoThenRedo, hsingle _ (by decide), ?_⟩
    exact yields_undoThenRedo.2 ⟨hm, _, hdepth, hg, rfl⟩
  | shift hd hn hu =>
    refine ⟨.shift, hsingle _ (by decide), ?_⟩
    exact yields_shift.2 ⟨_, hd, _, hn, _, hu, hg, rfl⟩
  | anySyntax =>
    exact ⟨.setSyntax, hsingle _ (by decide), yields_setSyntax.2 ⟨_, .inl rfl, hg, rfl⟩⟩
  | syntaxOf he =>
    exact ⟨.setSyntax, hsingle _ (by decide), yields_setSyntax.2 ⟨_, .inr he, hg, rfl⟩⟩
  | insertString ht =>
    exact ⟨.insertString, hsingle _ (by decide), yields_insertString.2 ⟨_, ht, hg, rfl⟩⟩

/-- **The actions of a category yield what it emits,** no more and no less. -/
theorem yields_perform_iff (hm : 0 ≤ m.mutations) :
    (∃ a ∈ table s.options c, (perform s m a).Yields (cs, m')) ↔
      Emits s m c (cs.map Command.phrase) m' :=
  ⟨fun ⟨_, ha, h⟩ => emits_of_yields ha h, exists_yields_of_emits hm⟩

end Action
end UndoScript
