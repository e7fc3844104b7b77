/-
# Which category a command tells of

A reader of a step's commands knows the category of the step. Every keyword
has its table, and FINDREGEXP, the one that is in two, tells by its pattern. A
step makes one command, but for the second commands of the pairs, which only
editing makes, and for the turns in which the clipboard rests.

Key definitions: `Emission.home`, `Emission.category`, `Emission.seconds`,
`Emission.changing`, `Emission.Lone`, `Emission.Pair`.
Key theorems: `Emission.category_eq_iff`, `Emission.category_eq_navigation_iff`,
`Emission.category_eq_editing_iff`, `Emits.form`, `Emits.shape`, `Emits.category_eq`,
`Emits.length_eq`, `Emits.countP_changing`.
-/
import UndoScript.Proofs.Action.Emission

namespace UndoScript
namespace Emission

/-- The categories other than editing. -/
def tabled : List Category := [.navigation, .flags, .deletion, .clipboard, .atomic, .text]

/-- The category in whose table the keyword is; what is in none of these is editing's. -/
def home (k : Keyword) : Category := (tabled.find? fun c => k ∈ keywords c).getD .editing

/-- The category that a command tells of. Only a search for any bracket moves; any other search for
a pattern is the first half of a replacement. -/
def category (p : Phrase) : Category :=
  if p.1 = .findRegexp then if p.2 = .bare anyBracket then .navigation else .editing
  else home p.1

/-- The keywords of the second commands of pairs. -/
def seconds : List Keyword := [.replaceAll, .replaceOnce, .redo]

/-- The keywords of pairs. FINDREGEXP is in pairs too, but stands alone with the pattern of
brackets. -/
def paired : List Keyword := .find :: .undo :: seconds

/-- The keywords of the commands that count as changes of the document. -/
def changing : List Keyword :=
  [.backspace, .deleteChar, .deleteToEndOfLine, .deleteLine, .deleteNextWord, .deletePrevWord,
   .insertChar, .insertLine, .insertString, .insertTab]

/-- A command that stands alone. Only navigation looks for a pattern so, and only in text. -/
structure Lone (s : Setting) (c : Category) (p : Phrase) : Prop where
  unpaired : p.1 ∉ paired
  brackets : p.1 = .findRegexp →
    c = .navigation ∧ s.options.binary = false ∧ p.2 = .bare anyBracket

/-- Two commands that stand together: what searches and what replaces, or what undoes and what
redoes as much. -/
inductive Pair (s : Setting) (m : Memory) : Phrase → Phrase → Prop
  | replaceFound {t u : Text} {k : Keyword} : s.options.Replaces k →
    Pair s m (.find, .quoted t) (k, .quoted u)
  | replaceMatch {p : String} {u : Text} {k : Keyword} : p ∈ patterns → s.options.Replaces k →
    Pair s m (.findRegexp, .bare p) (k, .quoted u)
  | undoThenRedo {depth : Nat} : depth ≤ Nat.sqrt m.mutations.toNat →
    Pair s m (.undo, .number depth) (.redo, .number depth)

/-! ### The tables -/

/-- No keyword but FINDREGEXP is in two tables. -/
theorem home_of_mem {c : Category} {k : Keyword} (hk : k ∈ keywords c) (hfind : k ≠ .findRegexp) :
    home k = c := by
  have hall : ∀ c ∈ Category.all, ∀ k ∈ keywords c, k ≠ .findRegexp → home k = c := by
    decide +kernel
  exact hall c (by cases c <;> decide) k hk hfind

theorem mem_of_home {c : Category} {k : Keyword} (hc : c ≠ .editing) (h : home k = c) :
    k ∈ keywords c := by
  unfold home at h
  cases hfound : tabled.find? fun c => k ∈ keywords c with
  | none =>
    rw [hfound] at h
    exact absurd h.symm hc
  | some d =>
    rw [hfound] at h
    obtain rfl : d = c := h
    simpa using List.find?_some hfound

theorem category_of_ne {p : Phrase} (hp : p.1 ≠ .findRegexp) : category p = home p.1 := by
  unfold category
  rw [if_neg hp]

/-- **A command of these categories is one with a keyword of their table.** -/
theorem category_eq_iff {p : Phrase} {c : Category} (hn : c ≠ .navigation) (he : c ≠ .editing) :
    category p = c ↔ p.1 ∈ keywords c := by
  by_cases hp : p.1 = .findRegexp
  · have hno : .findRegexp ∉ keywords c := by
      revert hn he
      cases c <;> decide
    rw [hp]
    refine iff_of_false (fun h => ?_) hno
    unfold category at h
    rw [if_pos hp] at h
    split at h
    · exact hn h.symm
    · exact he h.symm
  · rw [category_of_ne hp]
    exact ⟨mem_of_home he, fun hmem => home_of_mem hmem hp⟩

/-- **A command of navigation has a keyword of its table, or looks for any bracket.** -/
theorem category_eq_navigation_iff {p : Phrase} : category p = .navigation ↔
    (p.1 ≠ .findRegexp ∧ p.1 ∈ keywords .navigation) ∨ p = (.findRegexp, .bare anyBracket) := by
  by_cases hp : p.1 = .findRegexp
  · obtain ⟨k, a⟩ := p
    obtain rfl : k = .findRegexp := hp
    simp [category]
  · have hne : p ≠ (.findRegexp, .bare anyBracket) := fun h => hp (congrArg Prod.fst h)
    rw [category_of_ne hp, or_iff_left hne, and_iff_right hp]
    exact ⟨mem_of_home (by decide), fun hmem => home_of_mem hmem hp⟩

/-- **A command of editing is any other.** FINDREGEXP is in a table that is not editing's, but
tells by its pattern. -/
theorem category_eq_editing_iff {p : Phrase} : category p = .editing ↔
    (∀ d ∈ tabled, p.1 = .findRegexp ∨ p.1 ∉ keywords d) ∧ p ≠ (.findRegexp, .bare anyBracket) := by
  by_cases hp : p.1 = .findRegexp
  · obtain ⟨k, a⟩ := p
    obtain rfl : k = .findRegexp := hp
    simp [category]
  · have hne : p ≠ (.findRegexp, .bare anyBracket) := fun h => hp (congrArg Prod.fst h)
    have htabled : ∀ d ∈ tabled, d ≠ .editing := by decide
    have hother : ∀ c, c = .editing ↔ ∀ d ∈ tabled, c ≠ d := by
      intro c
      cases c <;> decide
    rw [category_of_ne hp, and_iff_left hne, hother]
    refine forall₂_congr fun d hd => ?_
    rw [or_iff_right hp]
    exact not_congr ⟨mem_of_home (htabled d hd), fun hmem => home_of_mem hmem hp⟩

theorem category_of_seconds {p : Phrase} (hp : p.1 ∈ seconds) : category p = .editing := by
  have hall : ∀ k ∈ seconds, k ≠ .findRegexp ∧ home k = .editing := by decide +kernel
  obtain ⟨hne, hhome⟩ := hall _ hp
  rw [category_of_ne hne, hhome]

/-- What counts as a change is what tells of deletion or text. -/
theorem mem_changing_iff {p : Phrase} : p.1 ∈ changing ↔ (category p).mutates = true := by
  have hmutates (c : Category) : c.mutates = true ↔ c = .deletion ∨ c = .text := by
    cases c <;> decide
  have htables (k : Keyword) :
      k ∈ changing ↔ k ∈ keywords .deletion ∨ k ∈ keywords .text := by
    cases k <;> decide
  rw [hmutates, category_eq_iff (by decide) (by decide), category_eq_iff (by decide) (by decide),
    htables]

theorem pattern_ne_anyBracket :
    ∀ t ∈ patterns, Text.ofString t ≠ Text.ofString anyBracket := by decide

/-- Keywords that stand alone or take a number, and movements by words, are in no pair and look for
nothing. -/
theorem tables_lone (c : Category) :
    (∀ k ∈ alone c ++ aloneInText c, k ≠ .findRegexp ∧ k ∉ paired) ∧
    (∀ p ∈ ranges c ++ rangesInText c, p.1 ≠ .findRegexp ∧ p.1 ∉ paired) ∧
    ∀ k ∈ wordMotions, k ≠ .findRegexp ∧ k ∉ paired := by
  cases c <;> decide

end Emission

open Emission

variable {s : Setting} {m m' : Memory} {c : Category} {g : List Phrase} {p q : Phrase} {k : Keyword}

/-! ### What a group tells -/

/-- **What a step makes** is nothing, for the clipboard, or one command that stands alone, or a pair
of editing. -/
theorem Emits.form (h : Emits s m c g m') : (g = [] ∧ c = .clipboard) ∨
    (∃ p, g = [p] ∧ Lone s c p) ∨ ∃ p q, g = [p, q] ∧ c = .editing ∧ Pair s m p q := by
  obtain ⟨halone, hranges, hwords⟩ := tables_lone c
  have hone {k : Keyword} {a : Argument} (hk : k ≠ .findRegexp ∧ k ∉ paired) :
      ∃ p, [(k, a)] = [p] ∧ Lone s c p :=
    ⟨(k, a), rfl, hk.2, fun hfind => absurd hfind hk.1⟩
  cases h with
  | alone hk => exact .inr (.inl (hone (halone _ (List.mem_append_left _ hk))))
  | aloneInText _ hk => exact .inr (.inl (hone (halone _ (List.mem_append_right _ hk))))
  | range hk => exact .inr (.inl (hone (hranges _ (List.mem_append_left _ hk))))
  | rangeInText _ hk => exact .inr (.inl (hone (hranges _ (List.mem_append_right _ hk))))
  | wordMotion _ hk => exact .inr (.inl (hone (hwords _ hk)))
  | brackets hbinary => exact .inr (.inl ⟨_, rfl, by decide, fun _ => ⟨rfl, hbinary, rfl⟩⟩)
  | turn hturn =>
    cases hturn with
    | rest => exact .inl ⟨rfl, rfl⟩
    | paste hk => rcases hk with rfl | rfl <;> exact .inr (.inl (hone (by decide)))
    | mark hk => rcases hk with rfl | rfl <;> exact .inr (.inl (hone (by decide)))
    | _ => exact .inr (.inl (hone (by decide)))
  | replaceFound _ _ hk => exact .inr (.inr ⟨_, _, rfl, rfl, .replaceFound hk⟩)
  | replaceMatch hp _ hk => exact .inr (.inr ⟨_, _, rfl, rfl, .replaceMatch hp hk⟩)
  | undoThenRedo hdepth => exact .inr (.inr ⟨_, _, rfl, rfl, .undoThenRedo hdepth⟩)
  | _ => exact .inr (.inl (hone (by decide)))

/-- The first command of a pair is no second one, and looks for no bracket. -/
theorem Emission.Pair.first (h : Pair s m p q) :
    p.1 ∉ seconds ∧ (p.1 = .findRegexp → p.2 ≠ .bare anyBracket) := by
  cases h with
  | replaceFound => exact ⟨by simp [seconds], fun hfind => nomatch hfind⟩
  | replaceMatch hp =>
    exact ⟨by simp [seconds], fun _ heq => pattern_ne_anyBracket _ hp (Argument.bare.inj heq)⟩
  | undoThenRedo => exact ⟨by simp [seconds], fun hfind => nomatch hfind⟩

theorem Emission.Pair.second (h : Pair s m p q) : q.1 ∈ seconds := by
  have hreplaces {k : Keyword} (hk : s.options.Replaces k) : k ∈ seconds := by
    rcases hk.eq_or with rfl | rfl <;> decide
  cases h with
  | replaceFound hk => exact hreplaces hk
  | replaceMatch _ hk => exact hreplaces hk
  | undoThenRedo => simp [seconds]

theorem Emission.Lone.keyword_ne (h : Lone s c p) (hk : k ∈ paired) : p.1 ≠ k :=
  fun heq => h.unpaired (heq ▸ hk)

theorem Emission.Pair.first_ne (h : Pair s m p q) (hk : k ∈ seconds) : p.1 ≠ k :=
  fun heq => h.first.1 (heq ▸ hk)

theorem Emission.Pair.second_ne (h : Pair s m p q) (hk : k ∉ seconds) : q.1 ≠ k :=
  fun heq => hk (heq ▸ h.second)

/-- Everything is replaced at once only if that is allowed. -/
theorem Emission.Pair.not_replaceAll (h : Pair s m p q) (ho : s.options.replaceAll = false) :
    q.1 ≠ .replaceAll := by
  have hreplaces {k : Keyword} (hk : s.options.Replaces k) : k ≠ .replaceAll := by
    rcases hk with rfl | ⟨-, hall⟩
    · decide
    · simp [ho] at hall
  cases h with
  | replaceFound hk => exact hreplaces hk
  | replaceMatch _ hk => exact hreplaces hk
  | undoThenRedo => simp

/-- **How much a step makes** is nothing, for the clipboard, or one command, or a pair of
editing. -/
theorem Emits.shape (h : Emits s m c g m') :
    (g = [] ∧ c = .clipboard) ∨
    (∃ p, g = [p] ∧ p.1 ∉ seconds ∧
      (p.1 = .findRegexp → c = .navigation ∧ p.2 = .bare anyBracket)) ∨
    ∃ p q, g = [p, q] ∧ c = .editing ∧ p.1 ∉ seconds ∧ q.1 ∈ seconds ∧
      (p.1 = .findRegexp → p.2 ≠ .bare anyBracket) := by
  rcases h.form with hrests | ⟨p, rfl, hlone⟩ | ⟨p, q, rfl, hc, hpair⟩
  · exact .inl hrests
  · have hsecond : p.1 ∉ seconds := fun hmem =>
      hlone.unpaired (List.mem_cons_of_mem _ (List.mem_cons_of_mem _ hmem))
    exact .inr (.inl ⟨p, rfl, hsecond, fun hfind =>
      ⟨(hlone.brackets hfind).1, (hlone.brackets hfind).2.2⟩⟩)
  · exact .inr (.inr ⟨p, q, rfl, hc, hpair.first.1, hpair.second, hpair.first.2⟩)

/-- **Every command of a step tells of the step's category.** -/
theorem Emits.category_eq (h : Emits s m c g m') : ∀ p ∈ g, category p = c := by
  intro p hp
  by_cases hfind : p.1 = .findRegexp
  · unfold category
    rw [if_pos hfind]
    rcases h.shape with ⟨rfl, -⟩ | ⟨q, rfl, -, hq⟩ | ⟨q, r, rfl, hc, -, hr, hq⟩
    · exact absurd hp List.not_mem_nil
    · obtain rfl := List.mem_singleton.1 hp
      obtain ⟨hc, hbracket⟩ := hq hfind
      rw [if_pos hbracket, hc]
    · have hpq : p = q := by
        rcases List.mem_cons.1 hp with hpq | hpr
        · exact hpq
        · obtain rfl := List.mem_singleton.1 hpr
          rw [hfind] at hr
          exact absurd hr (by decide)
      rw [hpq, if_neg (hq (hpq ▸ hfind)), hc]
  · rw [category_of_ne hfind]
    exact home_of_mem (h.keyword_mem p hp) hfind

/-- **A step makes one command besides the second one of a pair,** and the clipboard's makes one at
most. -/
theorem Emits.length_eq (h : Emits s m c g m') :
    (c ≠ .clipboard → g.length = 1 + g.countP fun p => p.1 ∈ seconds) ∧
    (c = .clipboard → g.length ≤ 1) := by
  rcases h.shape with ⟨rfl, hc⟩ | ⟨p, rfl, hp, -⟩ | ⟨p, q, rfl, hc, hp, hq, -⟩
  · exact ⟨fun hne => absurd hc hne, fun _ => Nat.zero_le 1⟩
  · simp [hp]
  · simp [hp, hq, hc]

/-- **A step that counts as a change makes one command that does,** and no other step makes any. -/
theorem Emits.countP_changing (h : Emits s m c g m') :
    (g.countP fun p => p.1 ∈ changing) = if c.mutates then 1 else 0 := by
  have hmem : ∀ p ∈ g, (p.1 ∈ changing ↔ c.mutates = true) := fun p hp => by
    rw [mem_changing_iff, h.category_eq p hp]
  by_cases hc : c.mutates = true
  · rw [if_pos hc, List.countP_eq_length.2 fun p hp => decide_eq_true ((hmem p hp).2 hc)]
    rcases h.shape with ⟨-, rfl⟩ | ⟨p, rfl, -⟩ | ⟨p, q, -, rfl, -⟩
    · cases hc
    · rfl
    · cases hc
  · rw [if_neg hc]
    exact List.countP_eq_zero.2 fun p hp hchange => hc ((hmem p hp).1 (of_decide_eq_true hchange))

end UndoScript
