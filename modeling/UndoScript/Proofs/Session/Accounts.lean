/-
# The tally tells the truth

However a session is used, the changes it remembers are the steps of deletion
and text that its tally has. And the tally of a script can be read off the
script: it has as many steps as were asked for, and the commands of the steps
tell how many there are of each category, but for the turns in which the
clipboard rested.

Key definitions: `Tally.total`, `Command.remains`, `Tally.Tells`,
`Session.Balances`.
Key theorems: `Tally.tells_of_emits`, `Session.tells_of_run_groups`,
`Session.invariant_balances`, `Use.tally_tells`.
-/
import UndoScript.Proofs.Action.Attribution
import UndoScript.Proofs.Session.Making
import UndoScript.Proofs.Session.Use

namespace UndoScript

open Emission

/-- The command remains for editing: its keyword is in no other table. FINDREGEXP is in one, and
remains unless it looks for any bracket. -/
def Command.remains (c : Command) : Bool :=
  (∀ d ∈ tabled, c.keyword = .findRegexp ∨ c.keyword ∉ keywords d) ∧
    c.phrase ≠ (.findRegexp, .bare anyBracket)

namespace Tally

variable {t : Tally} {cs ds : List Command} {s : Setting} {m m' : Memory} {c : Category}

/-- All steps. -/
def total (t : Tally) : Nat := (Category.all.map t.count).sum

theorem total_bump (t : Tally) (c : Category) : (t.bump c).total = t.total + 1 := by
  unfold total
  cases c <;> simp [Category.all, count, bump] <;> omega

/-- What the commands of some steps tell of their tally. -/
structure Tells (t : Tally) (steps : List Command) : Prop where
  /-- The steps of these categories are the commands with a keyword of their table. -/
  tables : ∀ d ∈ [Category.deletion, .text, .flags, .atomic],
    t.count d = steps.countP fun c => c.keyword ∈ keywords d
  /-- FINDREGEXP is a movement only with the pattern of brackets. -/
  navigation : t.count .navigation =
    (steps.countP fun c => c.keyword ≠ .findRegexp ∧ c.keyword ∈ keywords .navigation) +
      steps.countP fun c => c.phrase = (.findRegexp, .bare anyBracket)
  /-- What remains is editing's, and the second commands of pairs are no steps of their own. -/
  editing : t.count .editing + (steps.countP fun c => c.keyword ∈ seconds) =
    steps.countP Command.remains
  /-- A turn of the clipboard may make no command. -/
  clipboard : (steps.countP fun c => c.keyword ∈ keywords .clipboard) ≤ t.count .clipboard

theorem tells_zero : zero.Tells [] where
  tables d hd := by revert d; decide
  navigation := rfl
  editing := rfl
  clipboard := Nat.le_refl 0

/-- Commands of one step more tell of one step more. -/
theorem Tells.append (h : t.Tells cs) (hone : (zero.bump c).Tells ds) :
    (t.bump c).Tells (cs ++ ds) := by
  have hcount (d : Category) : (t.bump c).count d = t.count d + (zero.bump c).count d := by
    cases c <;> cases d <;> rfl
  have hedits := h.editing
  have hedit := hone.editing
  have hclips := h.clipboard
  have hclip := hone.clipboard
  constructor
  case tables =>
    intro d hd
    rw [hcount, List.countP_append, h.tables d hd, hone.tables d hd]
  case navigation =>
    rw [hcount, List.countP_append, List.countP_append, h.navigation, hone.navigation]
    omega
  case editing =>
    rw [hcount, List.countP_append, List.countP_append]
    omega
  case clipboard =>
    rw [hcount, List.countP_append]
    omega

/-! ### The commands of one step -/

/-- Commands that all tell of one category are counted for that category. -/
theorem countP_of_category {q : Command → Bool} {d : Category}
    (hq : ∀ x, q x = true ↔ category x.phrase = d) (hds : ∀ x ∈ ds, category x.phrase = c) :
    ds.countP q = if c = d then ds.length else 0 := by
  by_cases h : c = d
  · rw [if_pos h]
    exact List.countP_eq_length.2 fun x hx => (hq x).2 ((hds x hx).trans h)
  · rw [if_neg h]
    exact List.countP_eq_zero.2 fun x hx hqx => h ((hds x hx).symm.trans ((hq x).1 hqx))

/-- The keywords of a table, other than those two that FINDREGEXP is in, count its category. -/
theorem countP_table {d : Category} (hn : d ≠ .navigation) (he : d ≠ .editing)
    (hds : ∀ x ∈ ds, category x.phrase = c) :
    (ds.countP fun x => x.keyword ∈ keywords d) = if c = d then ds.length else 0 := by
  have htable (x : Command) : decide (x.keyword ∈ keywords d) = true ↔ category x.phrase = d :=
    decide_eq_true_iff.trans (category_eq_iff (p := x.phrase) hn he).symm
  exact countP_of_category htable hds

/-- A movement counts once, by its keyword or by its pattern. -/
theorem countP_navigation (hds : ∀ x ∈ ds, category x.phrase = c) :
    (ds.countP fun x => x.keyword ≠ .findRegexp ∧ x.keyword ∈ keywords .navigation) +
      (ds.countP fun x => x.phrase = (.findRegexp, .bare anyBracket)) =
        if c = .navigation then ds.length else 0 := by
  have hmoves (x : Command) : category x.phrase = .navigation ↔
      (x.keyword ≠ .findRegexp ∧ x.keyword ∈ keywords .navigation) ∨
        x.phrase = (.findRegexp, .bare anyBracket) := category_eq_navigation_iff
  have hapart (x : Command) (hbracket : x.phrase = (.findRegexp, .bare anyBracket)) :
      x.keyword = .findRegexp := congrArg Prod.fst hbracket
  induction ds with
  | nil => simp
  | cons x ds ih =>
    have hx := hds x List.mem_cons_self
    have hrest := ih fun y hy => hds y (List.mem_cons_of_mem x hy)
    rw [List.countP_cons, List.countP_cons, List.length_cons]
    by_cases hc : c = .navigation
    · rw [if_pos hc] at hrest ⊢
      rcases (hmoves x).1 (hx.trans hc) with hmove | hbracket
      · have hother : x.phrase ≠ (.findRegexp, .bare anyBracket) := fun h => hmove.1 (hapart x h)
        rw [if_pos (decide_eq_true hmove), if_neg (by simpa using hother)]
        omega
      · have hother : ¬ (x.keyword ≠ .findRegexp ∧ x.keyword ∈ keywords .navigation) :=
          fun h => h.1 (hapart x hbracket)
        rw [if_neg (by simpa using hother), if_pos (decide_eq_true hbracket)]
        omega
    · rw [if_neg hc] at hrest ⊢
      have hneither := mt (hmoves x).2 fun h => hc (hx.symm.trans h)
      rw [not_or] at hneither
      rw [if_neg (by simpa using hneither.1), if_neg (by simpa using hneither.2)]
      omega

/-- Only editing makes the second commands of pairs. -/
theorem countP_seconds (hds : ∀ x ∈ ds, category x.phrase = c) (hc : c ≠ .editing) :
    (ds.countP fun x => x.keyword ∈ seconds) = 0 := by
  refine List.countP_eq_zero.2 fun x hx hsecond => hc ?_
  have hkeyword : x.phrase.1 ∈ seconds := of_decide_eq_true hsecond
  exact (hds x hx).symm.trans (category_of_seconds hkeyword)

/-- **The commands of a step tell of one step** of its category. -/
theorem tells_of_emits (h : Emits s m c (ds.map Command.phrase) m') : (zero.bump c).Tells ds := by
  have hds : ∀ x ∈ ds, category x.phrase = c := fun x hx =>
    h.category_eq _ (List.mem_map_of_mem hx)
  obtain ⟨hmakes, hrests⟩ := h.length_eq
  rw [List.length_map, List.countP_map] at hmakes
  rw [List.length_map] at hrests
  have hpairs : c ≠ .clipboard → ds.length = 1 + ds.countP fun x => x.keyword ∈ seconds := hmakes
  have hsingle (hclip : c ≠ .clipboard) (he : c ≠ .editing) : ds.length = 1 := by
    rw [hpairs hclip, countP_seconds hds he]
  have hcount (d : Category) : (zero.bump c).count d = if c = d then 1 else 0 := by
    cases c <;> cases d <;> rfl
  constructor
  case tables =>
    intro d hd
    have hplain : d ≠ .navigation ∧ d ≠ .editing ∧ d ≠ .clipboard := by
      revert d
      decide
    obtain ⟨hn, he, hclip⟩ := hplain
    rw [hcount, countP_table hn he hds]
    by_cases hc : c = d
    · rw [if_pos hc, if_pos hc, hsingle (hc ▸ hclip) (hc ▸ he)]
    · rw [if_neg hc, if_neg hc]
  case navigation =>
    rw [hcount, countP_navigation hds]
    by_cases hc : c = .navigation
    · rw [if_pos hc, if_pos hc, hsingle (by rw [hc]; decide) (by rw [hc]; decide)]
    · rw [if_neg hc, if_neg hc]
  case editing =>
    have hremains (x : Command) : x.remains = true ↔ category x.phrase = .editing :=
      decide_eq_true_iff.trans (category_eq_editing_iff (p := x.phrase)).symm
    rw [hcount, countP_of_category hremains hds]
    by_cases hc : c = .editing
    · rw [if_pos hc, if_pos hc, hpairs (by rw [hc]; decide)]
    · rw [if_neg hc, if_neg hc, countP_seconds hds hc]
  case clipboard =>
    rw [hcount, countP_table (by decide) (by decide) hds]
    by_cases hc : c = .clipboard
    · rw [if_pos hc, if_pos hc]
      exact hrests hc
    · rw [if_neg hc, if_neg hc]

end Tally

namespace Session

variable {σ : Type} [Source σ] {s s' : Session σ}

/-! ### A run of steps -/

/-- A step is what its category emits, and one more of it in the tally. -/
theorem emits_of_run_step {g : List Command} (h : step.run s = (.ok g, s'))
    (hm : 0 ≤ s.memory.mutations) : ∃ c m', Emits s.setting s.memory c (g.map Command.phrase) m' ∧
      s'.memory = (if c.mutates then m'.changed else m') ∧ s'.tally = s.tally.bump c := by
  rw [run_step] at h
  rcases hrun : (s.setting.step s.memory).run s.source with ⟨f | t, source⟩
  · rw [hrun] at h
    cases h
  · rw [hrun] at h
    cases h
    obtain ⟨m', hemits, hmemory⟩ := (Setting.yields_step_iff hm).1 (Sampler.yields_of_run hrun)
    exact ⟨t.category, m', hemits, hmemory, rfl⟩

/-- **A run of steps is counted, and its commands tell so.** -/
theorem tells_of_run_groups : ∀ {n : Nat} {s : Session σ} {gs : List (List Command)}
    {cs : List Command}, (groups n).run s = (.ok gs, s') → 0 ≤ s.memory.mutations →
    s.tally.Tells cs → s'.tally.Tells (cs ++ gs.flatten) ∧ s'.tally.total = s.tally.total + n
  | 0, s, gs, cs, h, _, htells => by
    cases h
    rw [List.flatten_nil, List.append_nil]
    exact ⟨htells, rfl⟩
  | n + 1, s, gs, cs, h, hm, htells => by
    obtain ⟨g, s₁, hstep, h⟩ := run_bind_eq_ok h
    obtain ⟨rest, s₂, hrest, h⟩ := run_bind_eq_ok h
    cases h
    obtain ⟨c, m', hemits, hmemory, htally⟩ := emits_of_run_step hstep hm
    have hm' : 0 ≤ s₁.memory.mutations := by
      have hcount := hemits.mutations_eq
      rw [hmemory]
      split
      · show 0 ≤ m'.mutations + 1
        omega
      · omega
    have hnext : s₁.tally.Tells (cs ++ g) := htally ▸ htells.append (Tally.tells_of_emits hemits)
    obtain ⟨hall, htotal⟩ := tells_of_run_groups hrest hm' hnext
    rw [List.flatten_cons, ← List.append_assoc]
    refine ⟨hall, ?_⟩
    rw [htotal, htally, Tally.total_bump]
    omega

/-! ### Any use of a session -/

/-- The changes that are remembered are the steps that are counted as such. -/
structure Balances (s : Session σ) : Prop where
  counted : 0 ≤ s.memory.mutations
  mutations : s.memory.mutations = s.tally.deletion + s.tally.text

/-- **The changes and the tally agree,** whatever happens to the session. -/
theorem invariant_balances : Invariant (fun (s : Session σ) _ => s.Balances) where
  counted h := h.counted
  draw h := ⟨h.counted, h.mutations⟩
  fresh _ := ⟨Int.le_refl 0, rfl⟩
  take := by
    intro s made cs s' h htakes
    obtain ⟨hcounted, hmutations⟩ := h
    obtain ⟨-, c, m', hemits, hafter⟩ := htakes.emits hcounted
    have hcount := hemits.mutations_eq
    rcases hafter with ⟨hmemory, htally⟩ | ⟨hmemory, htally⟩
    · -- A step is counted twice, in the memory and in the tally.
      have hboth : s'.memory.mutations = s'.tally.deletion + s'.tally.text := by
        rw [hmemory, htally]
        cases c <;> simp [Category.mutates, Memory.changed, Tally.bump] <;> omega
      exact ⟨by omega, hboth⟩
    · rw [← hcount, ← hmemory] at hcounted hmutations
      exact ⟨hcounted, by rw [htally]; exact hmutations⟩

/-- **The tally of a script is told by the script,** however the session was used before. -/
theorem tells_of_run_script {value : Literal} {lines : List Text}
    (h : (script value).run s = (.ok lines, s')) : ∃ n opening steps closing,
      StepCount.Accepts value n ∧ lines = (opening ++ (steps ++ closing)).map Command.text ∧
      Script.parse (Text.ofLines lines) = .ok (opening ++ (steps ++ closing)) ∧
      Audit.parts (opening ++ (steps ++ closing)) = ⟨opening, steps, closing⟩ ∧
      s'.tally.total = n ∧ s'.tally.Tells steps := by
  obtain ⟨n, opening, gs, closing, s₁, hvalue, hstart, hgroups, hclosing, rfl, hrenders⟩ :=
    exists_of_run_script h
  obtain ⟨ts, closing', rfl, -, hclosing', hparts⟩ := exists_scriptParts hstart hgroups
  cases hclosing.symm.trans hclosing'
  obtain ⟨⟨source, rfl⟩, -⟩ := of_run_start hstart
  obtain ⟨htells, htotal⟩ := tells_of_run_groups hgroups (Int.le_refl 0) Tally.tells_zero
  refine ⟨n, opening, _, closing, (Setting.stepCount_eq_ok_iff.1 hvalue).1, rfl,
    Script.parse_ofLines fun c hc => ⟨hparts.readsBack c hc, hrenders c hc⟩, hparts.parts_eq, ?_,
    htells⟩
  rw [htotal]
  exact Nat.zero_add n

end Session

/-- **The tally tells the truth.** Start with a new session and do anything with it in any order,
with failures on the way: the changes it remembers are the steps of deletion and text in its tally.
And after any script that was written, whatever was done with the session before, the tally has as
many steps as were asked for; the lines read back as the script's commands, and those between the
opening and the closing tell how many steps there were of each category. -/
theorem Use.tally_tells {σ : Type} [Source σ] (setting : Setting) (source : σ) :
    (∀ ops, let s := ((Use.ofSetting setting source).after ops).session
      s.memory.mutations = s.tally.deletion + s.tally.text) ∧
    ∀ (s : Session σ) (value : Literal) (lines : List Text) (s' : Session σ),
      (Session.script value).run s = (.ok lines, s') → ∃ n opening steps closing,
        StepCount.Accepts value n ∧ lines = (opening ++ (steps ++ closing)).map Command.text ∧
        Script.parse (Text.ofLines lines) = .ok (opening ++ (steps ++ closing)) ∧
        Audit.parts (opening ++ (steps ++ closing)) = ⟨opening, steps, closing⟩ ∧
        s'.tally.total = n ∧ s'.tally.Tells steps := by
  refine ⟨fun ops => ?_, fun s value lines s' => Session.tells_of_run_script⟩
  have hstart : (Session.ofSetting setting source).Balances := ⟨Int.le_refl 0, rfl⟩
  exact (invariant_after Session.invariant_balances (u := Use.ofSetting setting source) hstart
    ops).1.mutations

/-- The tally of two steps over a document of one line is told by their script. -/
theorem Use.tally_tells_of_one_line : ∃ lines s',
    (Session.script (.whole 2)).run
        (Session.ofSetting ⟨.ofText "ab\n", "a.c", .standard⟩ (⟨[0, 99, 2], []⟩ : Tape)) =
      (.ok lines, s') ∧
    s'.tally.total = 2 ∧ ∃ opening steps closing,
      lines = (opening ++ (steps ++ closing)).map Command.text ∧ s'.tally.Tells steps := by
  have hcontent : (Document.ofText "ab\n").hasContent = true := by decide
  have hshort : Setting.Short ⟨.ofText "ab\n", "a.c", .standard⟩ 2 :=
    .of_lt (by decide) (by decide) (by decide) (by decide)
  obtain ⟨opening, ts, closing, s₁, s', hstart, hgroups, hclosing, hparts⟩ :=
    Session.exists_parts (n := 2)
      (s := Session.ofSetting ⟨.ofText "ab\n", "a.c", .standard⟩ (⟨[0, 99, 2], []⟩ : Tape))
      (Document.unbroken_ofText _) (by decide) (.inr hcontent)
  have hscript := Session.run_script (Setting.stepCount_eq_ok_iff.2 ⟨.whole 2, .inr hcontent⟩)
    hstart hgroups hclosing fun c hc => (hparts.legible hshort c hc).2
  rw [Session.excess_of_lt hshort.steps] at hscript
  obtain ⟨n, first, steps, last, haccepts, hlines, -, -, htotal, htells⟩ :=
    (tally_tells ⟨.ofText "ab\n", "a.c", .standard⟩ (⟨[0, 99, 2], []⟩ : Tape)).2 _ _ _ _ hscript
  have hn : n = 2 := by
    have heq := StepCount.accepts_whole_iff.1 haccepts
    omega
  exact ⟨_, s', hscript, htotal.trans hn, first, steps, last, hlines, htells⟩

end UndoScript
