/-
# What a check sees of the steps

None of the commands of a step looks like the opening of a script, all read
back from their lines, their numbers stay within a bound that the document and
the memory set, and every text that must come from the document is quoted, not
empty and in it. The turns of selecting and pasting are the only commands that
a reader of the clipboard takes note of, and the notes that the reader keeps
are what the memory says.

Key definitions: `Setting.Admits`, `Memory.notes`.
Key theorems: `Emits.admits`, `Emits.turn_or_quiet`, `Setting.Walk.admits`,
`Setting.Walk.notes`.
-/
import UndoScript.Audit.Check
import UndoScript.Proofs.Command.RoundTrip
import UndoScript.Proofs.Session.Run

namespace UndoScript

theorem Document.holds_of_content {d : Document} {t : Text} (h : d.IsContent t) :
    d.holds t = true := by
  obtain ⟨-, line, hline, rfl⟩ := h
  exact holds_iff.2 ⟨line, hline, List.infix_rfl⟩

theorem Document.holds_of_fragment {d : Document} {t : Text} (h : d.IsFragment t) :
    d.holds t = true := by
  obtain ⟨-, content, ⟨-, line, hline, rfl⟩, hpart⟩ := h.exists_content
  exact holds_iff.2 ⟨line, hline, hpart⟩

/-! ### Every command on its own -/

/-- What is known of each command of the steps, with a bound for its number. -/
structure Setting.Admits (s : Setting) (bound : Nat) (p : Phrase) : Prop where
  not_opens : p.1.opens = false
  readsBack : p.2.ReadsBack
  short : ∀ n, p.2 = .number n → n ≤ bound
  bare : ∀ t, p.2 = .bare t → t.IsInk
  quoted : ∀ t, p.2 = .quoted t → t ≠ [] ∧ s.document.holds t = true
  sampled : p.1.takesSample = true → ∃ t, p.2 = .quoted t

namespace Setting

variable {s : Setting} {bound : Nat} {k : Keyword}

theorem admits_absent (ho : k.opens = false) (ht : k.takesSample = false) :
    s.Admits bound (k, .absent) where
  not_opens := ho
  readsBack := trivial
  short _ h := by cases h
  bare _ h := by cases h
  quoted _ h := by cases h
  sampled h := by rw [ht] at h; cases h

theorem admits_number {n : Nat} (ho : k.opens = false) (ht : k.takesSample = false)
    (hn : n ≤ bound) : s.Admits bound (k, .number n) where
  not_opens := ho
  readsBack := Int.natCast_nonneg n
  short _ h := by cases h; exact_mod_cast hn
  bare _ h := by cases h
  quoted _ h := by cases h
  sampled h := by rw [ht] at h; cases h

theorem admits_word {t : Text} (ho : k.opens = false) (ht : k.takesSample = false)
    (hword : t.IsWord) : s.Admits bound (k, .bare t) where
  not_opens := ho
  readsBack := Argument.readsBack_of_isWord hword
  short _ h := by cases h
  bare _ h := by cases h; exact hword.2
  quoted _ h := by cases h
  sampled h := by rw [ht] at h; cases h

theorem admits_quoted {t : Text} (ho : k.opens = false) (hne : t ≠ [])
    (hholds : s.document.holds t = true) : s.Admits bound (k, .quoted t) where
  not_opens := ho
  readsBack := trivial
  short _ h := by cases h
  bare _ h := by cases h
  quoted _ h := by cases h; exact ⟨hne, hholds⟩
  sampled _ := ⟨t, rfl⟩

end Setting

/-- The tables hold no keyword of an opening and none that takes a text of the document. -/
theorem Emission.tables_plain (c : Category) :
    (∀ k ∈ alone c ++ aloneInText c, k.opens = false ∧ k.takesSample = false) ∧
    (∀ p ∈ ranges c ++ rangesInText c, p.1.opens = false ∧ p.1.takesSample = false ∧ p.2.2 ≤ 126) ∧
    ∀ k ∈ wordMotions, k.opens = false ∧ k.takesSample = false := by
  cases c <;> decide

/-- **What is emitted is admitted.** -/
theorem Emits.admits {s : Setting} {m m' : Memory} {c : Category} {g : List Phrase} {bound : Nat}
    (hbound : 126 ≤ bound) (hlines : s.document.lines.length ≤ bound)
    (hm : m.mutations ≤ bound) (h : Emits s m c g m') : ∀ p ∈ g, s.Admits bound p := by
  obtain ⟨halone, hranges, hwords⟩ := Emission.tables_plain c
  have hone {k : Keyword} {a : Argument} (hp : s.Admits bound (k, a)) :
      ∀ p ∈ [(k, a)], s.Admits bound p := by simpa using hp
  have htwo {k l : Keyword} {a b : Argument} (hp : s.Admits bound (k, a))
      (hq : s.Admits bound (l, b)) : ∀ p ∈ [(k, a), (l, b)], s.Admits bound p := by
    simpa using ⟨hp, hq⟩
  have hfragment {k : Keyword} {t : Text} (hk : k.opens = false) (ht : s.document.IsFragment t) :
      s.Admits bound (k, .quoted t) :=
    Setting.admits_quoted hk ht.exists_content.1 (Document.holds_of_fragment ht)
  have hreplaces {k : Keyword} (hk : s.options.Replaces k) : k.opens = false := by
    rcases hk with rfl | ⟨rfl, -⟩ <;> rfl
  cases h with
  | alone hk =>
    have hk' := halone _ (List.mem_append_left _ hk)
    exact hone (Setting.admits_absent hk'.1 hk'.2)
  | aloneInText _ hk =>
    have hk' := halone _ (List.mem_append_right _ hk)
    exact hone (Setting.admits_absent hk'.1 hk'.2)
  | range hk _ hlast =>
    obtain ⟨ho, ht, hshort⟩ := hranges _ (List.mem_append_left _ hk)
    exact hone (Setting.admits_number ho ht (Nat.le_trans hlast (Nat.le_trans hshort hbound)))
  | rangeInText _ hk _ hlast =>
    obtain ⟨ho, ht, hshort⟩ := hranges _ (List.mem_append_right _ hk)
    exact hone (Setting.admits_number ho ht (Nat.le_trans hlast (Nat.le_trans hshort hbound)))
  | gotoLine _ hlast => exact hone (Setting.admits_number rfl rfl (by omega))
  | lastBookmark => exact hone (Setting.admits_word rfl rfl (by decide))
  | adjustView hheight hside =>
    exact hone (Setting.admits_word rfl rfl (Emission.isWord_view _ hheight _ hside))
  | wordMotion _ hk =>
    have hk' := hwords _ hk
    exact hone (Setting.admits_word hk'.1 hk'.2 (Numeral.isWord_digits _))
  | brackets => exact hone (Setting.admits_word rfl rfl (by decide))
  | turn hturn =>
    cases hturn with
    | sort => exact hone (Setting.admits_word rfl rfl (by decide))
    | paste hk => rcases hk with rfl | rfl <;> exact hone (Setting.admits_absent rfl rfl)
    | mark hk => rcases hk with rfl | rfl <;> exact hone (Setting.admits_absent rfl rfl)
    | rest => exact fun p hp => absurd hp List.not_mem_nil
    | _ => exact hone (Setting.admits_absent rfl rfl)
  | replaceFound ht hu hk => exact htwo (hfragment rfl ht) (hfragment (hreplaces hk) hu)
  | replaceMatch hp hu hk =>
    exact htwo (Setting.admits_word rfl rfl (Emission.isWord_pattern _ hp))
      (hfragment (hreplaces hk) hu)
  | @undoThenRedo depth hdepth =>
    have hroot := Nat.sqrt_le_self m.mutations.toNat
    have hshort : depth ≤ bound := by omega
    exact htwo (Setting.admits_number rfl rfl hshort) (Setting.admits_number rfl rfl hshort)
  | shift hdirection _ hunit =>
    exact hone (Setting.admits_word rfl rfl (Emission.isWord_shift _ hdirection hunit))
  | anySyntax => exact hone (Setting.admits_word rfl rfl (by decide))
  | syntaxOf he => exact hone (Setting.admits_word rfl rfl he.isWord)
  | insertString ht =>
    exact hone (Setting.admits_quoted rfl ht.1 (Document.holds_of_content ht))

/-! ### The clipboard's history -/

namespace ClipboardNotes

/-- The notes after some commands. -/
def afterAll (n : ClipboardNotes) (cs : List Command) : ClipboardNotes := cs.foldl after n

theorem allProblems_append : ∀ (n : ClipboardNotes) (cs ds : List Command),
    n.allProblems (cs ++ ds) = n.allProblems cs ++ (n.afterAll cs).allProblems ds
  | _, [], _ => rfl
  | n, c :: cs, ds => by
    rw [List.cons_append, allProblems, allProblems, allProblems_append (n.after c) cs ds,
      List.append_assoc]
    rfl

theorem afterAll_append (n : ClipboardNotes) (cs ds : List Command) :
    n.afterAll (cs ++ ds) = (n.afterAll cs).afterAll ds := List.foldl_append

/-- Commands without a part in it leave the clipboard's history alone. -/
theorem quiet : ∀ {n : ClipboardNotes} {cs : List Command},
    (∀ c ∈ cs, c.keyword.clipboardRole = .none) → n.allProblems cs = [] ∧ n.afterAll cs = n
  | _, [], _ => ⟨rfl, rfl⟩
  | n, c :: cs, h => by
    have hc := h c List.mem_cons_self
    have hproblems : n.problems c = [] := by
      unfold problems
      rw [hc]
    have hafter : n.after c = n := by
      unfold after
      rw [hc]
    obtain ⟨hrest, hafter'⟩ := quiet (n := n) fun d hd => h d (List.mem_cons_of_mem c hd)
    refine ⟨?_, ?_⟩
    · rw [allProblems, hproblems, hafter, hrest, List.append_nil]
    · show (n.after c).afterAll cs = n
      rw [hafter, hafter']

end ClipboardNotes

/-- What a reader of the clipboard should know. -/
def Memory.notes (m : Memory) : ClipboardNotes := ⟨m.selecting, m.clipboardFull⟩

/-- Only the turns of selecting and pasting play a part in the clipboard's history. -/
theorem Emits.turn_or_quiet {s : Setting} {m m' : Memory} {c : Category} {g : List Phrase}
    (h : Emits s m c g m') :
    Turn m g m' ∨ (m' = m ∧ ∀ p ∈ g, p.1.clipboardRole = .none) := by
  by_cases hc : c = .clipboard
  · subst hc
    left
    cases h with
    | turn hturn => exact hturn
    | alone hk => exact absurd hk List.not_mem_nil
    | aloneInText _ hk => exact absurd hk List.not_mem_nil
    | range hk => exact absurd hk List.not_mem_nil
    | rangeInText _ hk => exact absurd hk List.not_mem_nil
  · right
    have hquiet : ∀ c ≠ .clipboard, ∀ k ∈ Emission.keywords c, k.clipboardRole = .none := by
      intro c hc
      cases c <;> first | exact absurd rfl hc | decide
    exact ⟨h.memory_eq hc, fun p hp => hquiet c hc p.1 (h.keyword_mem p hp)⟩

/-- **A reader of the clipboard finds nothing wrong with a step,** and knows as much after it as is
remembered. -/
theorem Emits.notes {s : Setting} {m m' : Memory} {c : Category} {cs : List Command}
    (h : Emits s m c (cs.map Command.phrase) m') :
    m.notes.allProblems cs = [] ∧ m.notes.afterAll cs = m'.notes := by
  rcases h.turn_or_quiet with hturn | ⟨rfl, hquiet⟩
  · generalize hg : cs.map Command.phrase = g at hturn
    have hone {k : Keyword} {a : Argument} (hcs : cs.map Command.phrase = [(k, a)]) :
        ∃ c, cs = [c] ∧ c.keyword = k := by
      obtain ⟨c, rfl, hc⟩ := Action.map_phrase_eq_one.1 hcs
      exact ⟨c, rfl, congrArg Prod.fst hc⟩
    cases hturn with
    | rest =>
      obtain rfl := List.map_eq_nil_iff.1 hg
      exact ⟨rfl, rfl⟩
    | paste hk hidle hfull =>
      obtain ⟨c, rfl, hc⟩ := hone hg
      rcases hk with rfl | rfl <;>
        simp [ClipboardNotes.allProblems, ClipboardNotes.afterAll, ClipboardNotes.problems,
          ClipboardNotes.after, Keyword.clipboardRole, Memory.notes, hc, hidle, hfull]
    | mark hk hidle hfull =>
      obtain ⟨c, rfl, hc⟩ := hone hg
      rcases hk with rfl | rfl <;>
        simp [ClipboardNotes.allProblems, ClipboardNotes.afterAll, ClipboardNotes.problems,
          ClipboardNotes.after, Keyword.clipboardRole, Memory.notes, hc, hidle, hfull]
    | _ hselecting =>
      obtain ⟨c, rfl, hc⟩ := hone hg
      simp [ClipboardNotes.allProblems, ClipboardNotes.afterAll, ClipboardNotes.problems,
        ClipboardNotes.after, Keyword.clipboardRole, Memory.notes, hc, hselecting]
  · exact ClipboardNotes.quiet fun c hc => hquiet _ (List.mem_map.2 ⟨c, hc, rfl⟩)

/-! ### Walks -/

namespace Setting

variable {s : Setting} {m m' : Memory} {ts : List Step}

/-- The commands of all steps of a walk are admitted. -/
theorem Walk.admits {bound : Nat} (hbound : 126 ≤ bound)
    (hlines : s.document.lines.length ≤ bound) (h : s.Walk m ts m') (hm : 0 ≤ m.mutations)
    (hcount : m.mutations + ts.length ≤ bound) :
    ∀ c ∈ (ts.map Step.commands).flatten, s.Admits bound c.phrase := by
  induction h with
  | rest m => exact fun c hc => absurd hc List.not_mem_nil
  | @step m m' t ts hstep _ ih =>
    obtain ⟨after, hemits, -⟩ := (yields_step_iff hm).1 hstep
    obtain ⟨hlow, hhigh⟩ := mutations_of_yields_step hm hstep
    rw [List.length_cons] at hcount
    intro c hc
    rw [List.map_cons, List.flatten_cons, List.mem_append] at hc
    rcases hc with hc | hc
    · exact hemits.admits hbound hlines (by omega) _ (List.mem_map.2 ⟨c, hc, rfl⟩)
    · exact ih (by omega) (by omega) c hc

/-- **A reader of the clipboard finds nothing wrong with a walk.** -/
theorem Walk.notes (h : s.Walk m ts m') (hm : 0 ≤ m.mutations) :
    m.notes.allProblems (ts.map Step.commands).flatten = [] ∧
      m.notes.afterAll (ts.map Step.commands).flatten = m'.notes := by
  induction h with
  | rest m => exact ⟨rfl, rfl⟩
  | @step m m' t ts hstep _ ih =>
    obtain ⟨after, hemits, hmemory⟩ := (yields_step_iff hm).1 hstep
    obtain ⟨hlow, -⟩ := mutations_of_yields_step hm hstep
    obtain ⟨hproblems, hafter⟩ := hemits.notes
    obtain ⟨hproblems', hafter'⟩ := ih (by omega)
    have hnotes : t.memory.notes = after.notes := by
      rw [hmemory]
      split <;> rfl
    rw [hnotes] at hproblems' hafter'
    rw [List.map_cons, List.flatten_cons, ClipboardNotes.allProblems_append,
      ClipboardNotes.afterAll_append, hproblems, hafter, hproblems', hafter']
    exact ⟨rfl, rfl⟩

end Setting
end UndoScript
