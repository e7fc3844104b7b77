/-
# Pairs in a script

A pair of commands is made by one step, so it stays together whatever steps
come before and after it: what searches is followed by what replaces, and what
undoes by what redoes as much. A command that stands alone is in no pair, and
neither are those that open and close the script, but for the last UNDO and
REDO. An UNDO among the steps goes no deeper than the root of the changes so
far, and these are the commands before it that change the document.

Key definitions: `Emission.Seeks`, `Setting.Place`, `KeepsUndoShallow`,
`KeepsSearchesPaired`.
Key theorems: `Setting.ScriptParts.place`, `Session.undo_stays_shallow`,
`Session.searches_stay_paired`.
-/
import UndoScript.Proofs.Action.Attribution
import UndoScript.Proofs.Session.Making

namespace UndoScript

open Emission

variable {s : Setting} {m : Memory} {p q : Phrase} {n : Nat} {ts : List Step}
  {before after opening closing : List Command} {c : Command}

/-! ### What a pair is about -/

namespace Emission

/-- The keywords that replace. -/
def replacing : List Keyword := [.replaceAll, .replaceOnce]

/-- A command that looks for what is to be replaced. -/
def Seeks (p : Phrase) : Prop := p.1 = .find ∨ ∃ t ∈ patterns, p = (.findRegexp, .bare t)

/-- A command that stands alone does not look for what is to be replaced. -/
theorem Lone.not_seeks {category : Category} (h : Lone s category p) : ¬ Seeks p := by
  rintro (hfind | ⟨t, ht, rfl⟩)
  · exact h.keyword_ne (by decide) hfind
  · obtain ⟨-, -, heq⟩ := h.brackets rfl
    exact pattern_ne_anyBracket t ht (Argument.bare.inj heq)

/-- **The first command of a pair seeks exactly if the second replaces.** -/
theorem Pair.seeks_iff (h : Pair s m p q) : Seeks p ↔ q.1 ∈ replacing := by
  have hreplaces {k : Keyword} (hk : s.options.Replaces k) : k ∈ replacing := by
    rcases hk.eq_or with rfl | rfl <;> decide
  cases h with
  | replaceFound hk => exact iff_of_true (.inl rfl) (hreplaces hk)
  | replaceMatch hp hk => exact iff_of_true (.inr ⟨_, hp, rfl⟩) (hreplaces hk)
  | undoThenRedo => simp [Seeks, replacing]

/-- The second command of a pair looks for nothing. -/
theorem Pair.not_seeks (h : Pair s m p q) : ¬ Seeks q := by
  rintro (hfind | ⟨t, -, rfl⟩)
  · exact h.second_ne (by decide) hfind
  · exact h.second_ne (k := .findRegexp) (by decide) rfl

/-- A search for a pattern that comes first in a pair is for one that is to be replaced. -/
theorem Pair.seeks_of_findRegexp (h : Pair s m p q) (hp : p.1 = .findRegexp) : Seeks p := by
  cases h with
  | replaceFound => exact .inl rfl
  | replaceMatch hpattern => exact .inr ⟨_, hpattern, rfl⟩
  | undoThenRedo => cases hp

/-- **The first command of a pair undoes exactly if the second redoes,** and then both go as deep,
and not too deep. -/
theorem Pair.undo_iff (h : Pair s m p q) :
    (p.1 = .undo ↔ q.1 = .redo) ∧ (p.1 = .undo → ∃ depth : Nat, p = (.undo, .number depth) ∧
      q = (.redo, .number depth) ∧ depth ≤ Nat.sqrt m.mutations.toNat) := by
  have hreplaces {k : Keyword} (hk : s.options.Replaces k) : k ≠ .redo := by
    rcases hk.eq_or with rfl | rfl <;> decide
  cases h with
  | replaceFound hk => simp [hreplaces hk]
  | replaceMatch hp hk => simp [hreplaces hk]
  | undoThenRedo hdepth => exact ⟨iff_of_true rfl rfl, fun _ => ⟨_, rfl, rfl, hdepth⟩⟩

end Emission

/-! ### Where a command stands -/

namespace Setting

/-- Where a command stands among the steps: alone, or first in a pair that was made after the
changes before it were counted, or second in a pair. -/
inductive Place (s : Setting) (before : List Command) (c : Command) (after : List Command) : Prop
  | alone {category : Category} : Lone s category c.phrase → Place s before c after
  | first {m : Memory} {d : Command} {rest : List Command} : after = d :: rest →
    Pair s m c.phrase d.phrase →
    m.mutations = (before.countP fun d => d.keyword ∈ changing : Nat) → Place s before c after
  | second {m : Memory} {d : Command} {front : List Command} : before = front ++ [d] →
    Pair s m d.phrase c.phrase → Place s before c after

/-- **Every command of the steps has its place.** -/
theorem ScriptParts.place (h : s.ScriptParts n opening ts closing)
    (hat : (ts.map Step.commands).flatten = before ++ c :: after) : s.Place before c after := by
  obtain ⟨reached, hwalk⟩ := h.walk
  obtain ⟨front, b, a, rest, m₁, m₂, category, rfl, rfl, hemits, hm₁⟩ :=
    hwalk.exists_group (Int.le_refl 0) hat
  rcases hemits.form with ⟨hnil, -⟩ | ⟨p, hone, hlone⟩ | ⟨p, q, htwo, -, hpair⟩
  · simp at hnil
  · have hc : c.phrase ∈ [p] := hone ▸ by simp
    obtain rfl := List.mem_singleton.1 hc
    exact .alone hlone
  · -- the group of two is split before its first command or before its second
    rw [List.map_append, List.map_cons] at htwo
    rcases b with - | ⟨d, - | ⟨e, b⟩⟩
    · obtain ⟨rfl, ha⟩ := List.cons.inj htwo
      obtain ⟨d, rfl, rfl⟩ := List.map_eq_singleton_iff.1 ha
      refine .first rfl hpair ?_
      rw [hm₁, List.append_nil]
      exact Int.zero_add _
    · obtain ⟨rfl, hcq⟩ := List.cons.inj htwo
      obtain ⟨rfl, -⟩ := List.cons.inj hcq
      exact .second rfl hpair
    · simp at htwo

end Setting

/-! ### UNDO and REDO -/

/-- An UNDO is followed by a REDO as deep, its depth squared is at most the number of changes before
it, and every REDO follows such an UNDO. -/
structure KeepsUndoShallow (steps : List Command) : Prop where
  undo : ∀ before c after, steps = before ++ c :: after → c.keyword = .undo →
    ∃ (depth : Nat) (d : Command) (rest : List Command), after = d :: rest ∧
      c.phrase = (.undo, .number depth) ∧ d.phrase = (.redo, .number depth) ∧
      depth * depth ≤ before.countP fun e => e.keyword ∈ changing
  redo : ∀ before d after, steps = before ++ d :: after → d.keyword = .redo →
    ∃ front c, before = front ++ [c] ∧ c.keyword = .undo

/-- **UNDO goes no deeper than the work done.** -/
theorem Setting.ScriptParts.keepsUndoShallow (h : s.ScriptParts n opening ts closing) :
    KeepsUndoShallow (ts.map Step.commands).flatten where
  undo before c after hat hundo := by
    cases h.place hat with
    | alone hlone => exact absurd hundo (hlone.keyword_ne (by decide))
    | @first m d rest hafter hpair hm =>
      obtain ⟨depth, hc, hd, hdepth⟩ := hpair.undo_iff.2 hundo
      rw [hm, Int.toNat_natCast, Nat.le_sqrt] at hdepth
      exact ⟨depth, d, rest, hafter, hc, hd, hdepth⟩
    | second hbefore hpair => exact absurd hundo (hpair.second_ne (by decide))
  redo before d after hat hredo := by
    cases h.place hat with
    | alone hlone => exact absurd hredo (hlone.keyword_ne (by decide))
    | first hafter hpair hm => exact absurd hredo (hpair.first_ne (by decide))
    | @second m c front hbefore hpair => exact ⟨front, c, hbefore, hpair.undo_iff.1.2 hredo⟩

/-! ### Searches and replacements -/

/-- The keywords that search or replace. -/
def Emission.searching : List Keyword := .find :: .findRegexp :: replacing

/-- A command replaces exactly if the one before it seeks, and what seeks is followed by what
replaces. Any other search for a pattern is for brackets, in a text, and everything is replaced at
once only if that is allowed. -/
structure KeepsSearchesPaired (o : Options) (cs : List Command) : Prop where
  replaces : ∀ before c after, cs = before ++ c :: after →
    (c.keyword ∈ replacing ↔ ∃ front d, before = front ++ [d] ∧ Seeks d.phrase)
  seeks : ∀ before c after, cs = before ++ c :: after → Seeks c.phrase →
    ∃ d rest, after = d :: rest ∧ d.keyword ∈ replacing
  brackets : ∀ c ∈ cs, c.keyword = .findRegexp → ¬ Seeks c.phrase →
    c.phrase = (.findRegexp, .bare anyBracket) ∧ o.binary = false
  everywhere : o.replaceAll = false → ∀ c ∈ cs, c.keyword ≠ .replaceAll

theorem Emission.Seeks.searching (h : Seeks p) : p.1 ∈ searching := by
  rcases h with hfind | ⟨t, -, rfl⟩
  · exact hfind ▸ List.mem_cons_self
  · exact List.mem_cons_of_mem _ List.mem_cons_self

namespace Setting.ScriptParts

/-- What opens and closes a script neither searches nor replaces. -/
theorem not_searching (h : s.ScriptParts n opening ts closing) :
    ∀ c ∈ opening ++ closing, c.keyword ∉ searching := by
  obtain ⟨utf8, -, hopening⟩ := h.opens
  have hopens : ∀ k : Keyword, k.opens = true → k ∉ searching := by
    intro k
    cases k <;> decide
  have hcloses : ∀ p ∈ s.closingPhrases, p.1 ∉ searching := by
    simp [closingPhrases, searching, replacing]
  intro c hc
  rcases List.mem_append.1 hc with hc | hc
  · exact hopens _ (Audit.opens_of_opening hopening c hc)
  · exact Command.forall_of_phrases h.closes hcloses c hc

/-- **What searches or replaces is among the steps,** and has its place there. -/
theorem place_of_searching (h : s.ScriptParts n opening ts closing)
    (hat : opening ++ ((ts.map Step.commands).flatten ++ closing) = before ++ c :: after)
    (hc : c.keyword ∈ searching) :
    ∃ front rest, before = opening ++ front ∧ after = rest ++ closing ∧ s.Place front c rest := by
  have hnot := h.not_searching
  rcases exists_part_of_append_eq hat with ⟨rest, hopening, -⟩ | ⟨front, hbefore, hrest⟩
  · exact absurd hc (hnot c (by simp [hopening]))
  · rcases exists_part_of_append_eq hrest with ⟨rest, hsteps, hafter⟩ | ⟨last, -, hclosing⟩
    · exact ⟨front, rest, hbefore, hafter, h.place hsteps⟩
    · exact absurd hc (hnot c (by simp [hclosing]))

/-- What seeks is followed by what replaces. -/
theorem replaces_of_seeks (h : s.ScriptParts n opening ts closing)
    (hat : opening ++ ((ts.map Step.commands).flatten ++ closing) = before ++ c :: after)
    (hc : Seeks c.phrase) : ∃ d rest, after = d :: rest ∧ d.keyword ∈ replacing := by
  obtain ⟨front, rest, rfl, rfl, hplace⟩ := h.place_of_searching hat hc.searching
  cases hplace with
  | alone hlone => exact absurd hc hlone.not_seeks
  | @first m d others hrest hpair =>
    exact ⟨d, others ++ closing, by rw [hrest]; rfl, hpair.seeks_iff.1 hc⟩
  | second hfront hpair => exact absurd hc hpair.not_seeks

/-- What replaces comes after what seeks. -/
theorem seeks_of_replaces (h : s.ScriptParts n opening ts closing)
    (hat : opening ++ ((ts.map Step.commands).flatten ++ closing) = before ++ c :: after)
    (hc : c.keyword ∈ replacing) : ∃ front d, before = front ++ [d] ∧ Seeks d.phrase := by
  have hsearching : c.keyword ∈ searching := List.mem_cons_of_mem _ (List.mem_cons_of_mem _ hc)
  have hpaired : ∀ k ∈ replacing, k ∈ paired ∧ k ∈ seconds := by decide
  obtain ⟨front, rest, rfl, rfl, hplace⟩ := h.place_of_searching hat hsearching
  cases hplace with
  | alone hlone => exact absurd rfl (hlone.keyword_ne (hpaired _ hc).1)
  | first hrest hpair => exact absurd rfl (hpair.first_ne (hpaired _ hc).2)
  | @second m d others hfront hpair =>
    exact ⟨opening ++ others, d, by rw [hfront, List.append_assoc], hpair.seeks_iff.2 hc⟩

/-- **Searches and replacements stay together.** -/
theorem keepsSearchesPaired (h : s.ScriptParts n opening ts closing) :
    KeepsSearchesPaired s.options
      (opening ++ ((ts.map Step.commands).flatten ++ closing)) where
  replaces before c after hat := by
    refine ⟨h.seeks_of_replaces hat, ?_⟩
    rintro ⟨front, d, rfl, hd⟩
    rw [List.append_assoc] at hat
    obtain ⟨e, rest, hrest, he⟩ := h.replaces_of_seeks hat hd
    obtain ⟨rfl, -⟩ := List.cons.inj hrest
    exact he
  seeks before c after := h.replaces_of_seeks
  brackets c hc hkeyword hseeks := by
    obtain ⟨before, after, hat⟩ := List.append_of_mem hc
    obtain ⟨front, rest, -, -, hplace⟩ := h.place_of_searching hat (hkeyword ▸ by decide)
    cases hplace with
    | alone hlone =>
      obtain ⟨-, hbinary, hbracket⟩ := hlone.brackets hkeyword
      exact ⟨Prod.ext hkeyword hbracket, hbinary⟩
    | first hrest hpair => exact absurd (hpair.seeks_of_findRegexp hkeyword) hseeks
    | second hfront hpair => exact absurd hkeyword (hpair.second_ne (by decide))
  everywhere ho c hc hkeyword := by
    obtain ⟨before, after, hat⟩ := List.append_of_mem hc
    obtain ⟨front, rest, -, -, hplace⟩ := h.place_of_searching hat (hkeyword ▸ by decide)
    cases hplace with
    | alone hlone => exact hlone.keyword_ne (by decide) hkeyword
    | first hrest hpair => exact hpair.first_ne (by decide) hkeyword
    | second hfront hpair => exact hpair.not_replaceAll ho hkeyword

end Setting.ScriptParts

namespace Session

variable {σ : Type} [Source σ] {s : Session σ}

/-- **UNDO goes no deeper than the work done.** In the steps of the script that a session generates,
whatever it remembers and whatever is drawn, every UNDO is followed by a REDO as deep, and there is
no other REDO; and the depth squared is at most the number of commands before the UNDO that delete
or insert. -/
theorem undo_stays_shallow (hd : s.setting.document.Unbroken)
    (ht : Glyph.newline ∉ s.setting.target)
    (hn : n = 0 ∨ s.setting.document.hasContent = true) :
    ∃ opening ts closing, s.Generates n opening ts closing ∧
      KeepsUndoShallow (ts.map Step.commands).flatten := by
  obtain ⟨opening, ts, closing, h⟩ := exists_generates hd ht hn
  exact ⟨opening, ts, closing, h, h.parts.keepsUndoShallow⟩

/-- A line is inserted, and then as much is undone as may be. -/
theorem undo_stays_shallow_after_one_change :
    (Document.ofText "ab\n").Unbroken ∧ Glyph.newline ∉ Text.ofString "a.c" ∧
      (Document.ofText "ab\n").hasContent = true ∧ ∃ opening ts closing, Generates
          (ofSetting ⟨.ofText "ab\n", "a.c", .standard⟩ (⟨[0, 60, 1, 40, 5, 1], []⟩ : Tape)) 2
          opening ts closing ∧
        KeepsUndoShallow (ts.map Step.commands).flatten ∧
        ((opening ++ ((ts.map Step.commands).flatten ++ closing)).take 7).map Command.phrase =
          [(.openFile, .quoted "a.c"), (.turbo, .number 10000), (.autoMatchBracket, .number 1),
           (.utf8, .number 0), (.insertLine, .absent), (.undo, .number 1), (.redo, .number 1)] := by
  have hd : (Document.ofText "ab\n").Unbroken := Document.unbroken_ofText _
  have ht : Glyph.newline ∉ Text.ofString "a.c" := by decide
  have hcontent : (Document.ofText "ab\n").hasContent = true := by decide
  obtain ⟨opening, ts, closing, h, hshallow⟩ := undo_stays_shallow (n := 2)
    (s := ofSetting ⟨.ofText "ab\n", "a.c", .standard⟩ (⟨[0, 60, 1, 40, 5, 1], []⟩ : Tape))
    hd ht (.inr hcontent)
  exact ⟨hd, ht, hcontent, opening, ts, closing, h, hshallow, h.take_eq rfl⟩

/-- **Searches and replacements stay paired.** In the script that a session generates, whatever it
remembers and whatever is drawn, a command replaces exactly if the one before it seeks what is to be
replaced, and no other search has a pattern but the one for brackets, in a text. -/
theorem searches_stay_paired (hd : s.setting.document.Unbroken)
    (ht : Glyph.newline ∉ s.setting.target)
    (hn : n = 0 ∨ s.setting.document.hasContent = true) :
    ∃ opening ts closing, s.Generates n opening ts closing ∧
      KeepsSearchesPaired s.setting.options
        (opening ++ ((ts.map Step.commands).flatten ++ closing)) := by
  obtain ⟨opening, ts, closing, h⟩ := exists_generates hd ht hn
  exact ⟨opening, ts, closing, h, h.parts.keepsSearchesPaired⟩

/-- A fragment is found and replaced, and then a bracket is looked for. -/
theorem searches_stay_paired_before_brackets :
    (Document.ofText "ab\n").Unbroken ∧ Glyph.newline ∉ Text.ofString "a.c" ∧
      (Document.ofText "ab\n").hasContent = true ∧ ∃ opening ts closing, Generates
          (ofSetting ⟨.ofText "ab\n", "a.c", .standard⟩
            (⟨[0, 40, 2, 0, 0, 0, 0, 0, 0, 0, 0, 28], []⟩ : Tape)) 2 opening ts closing ∧
        KeepsSearchesPaired .standard
          (opening ++ ((ts.map Step.commands).flatten ++ closing)) ∧
        ((opening ++ ((ts.map Step.commands).flatten ++ closing)).take 7).map Command.phrase =
          [(.openFile, .quoted "a.c"), (.turbo, .number 10000), (.autoMatchBracket, .number 1),
           (.utf8, .number 0), (.find, .quoted "a"), (.replaceAll, .quoted "a"),
           (.findRegexp, .bare anyBracket)] := by
  have hd : (Document.ofText "ab\n").Unbroken := Document.unbroken_ofText _
  have ht : Glyph.newline ∉ Text.ofString "a.c" := by decide
  have hcontent : (Document.ofText "ab\n").hasContent = true := by decide
  obtain ⟨opening, ts, closing, h, hpaired⟩ := searches_stay_paired (n := 2)
    (s := ofSetting ⟨.ofText "ab\n", "a.c", .standard⟩
      (⟨[0, 40, 2, 0, 0, 0, 0, 0, 0, 0, 0, 28], []⟩ : Tape))
    hd ht (.inr hcontent)
  exact ⟨hd, ht, hcontent, opening, ts, closing, h, hpaired, h.take_eq rfl⟩

end Session
end UndoScript
