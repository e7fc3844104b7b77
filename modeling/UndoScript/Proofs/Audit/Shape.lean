/-
# What a check asks of each part

An opening starts with OPEN and TURBO, or with BINARY, OPEN and TURBO and then
leaves the text settings alone; what it opens first is the target, if one is
given. A closing saves, undoes, saves, redoes, saves and exits, as deep one way
as the other and under three names with one base. A sample is a quoted piece of
a line. A check finds no problem with a part exactly if it is like that.

Key definitions: `Audit.IsOpening`, `Audit.Opens`, `Audit.IsClosing`,
`Document.Samples`.
Key theorems: `Audit.parts_append`, `Audit.opening_eq_nil_iff`,
`Audit.closing_eq_nil_iff`, `Audit.sampled_eq_nil_iff`.
-/
import Mathlib.Data.List.TakeWhile
import UndoScript.Audit.Check
import UndoScript.Proofs.Action.Extension
import UndoScript.Proofs.Document

namespace UndoScript

/-- A quoted text, not empty, that is a piece of the content of some line. -/
def Document.Samples (d : Document) (a : Argument) : Prop :=
  ∃ t, a = .quoted t ∧ t ≠ [] ∧ ∃ line ∈ d.lines, t <:+: line.content

namespace Command

variable {c : Command}

theorem operand_of_nothing (h : c.keyword.kind = .nothing) : c.argument.operand = .absent := by
  have hfits := c.fits
  cases ha : c.argument <;> simp_all [Argument.Fits, Argument.operand]

theorem operand_of_number (h : c.keyword.kind = .number) :
    c.argument.operand = .absent ∨ ∃ n, c.argument.operand = .number n := by
  have hfits := c.fits
  cases ha : c.argument <;> simp_all [Argument.Fits, Argument.operand]

end Command

namespace Audit

/-- The keywords that may stand in an opening. -/
def openers : List Keyword := [.binary, .openFile, .turbo, .autoMatchBracket, .utf8]

/-- The keywords whose text must come from the document. -/
def samplers : List Keyword := [.find, .replaceAll, .replaceOnce, .insertString]

/-- Keywords that start like the opening of a text, or like that of a binary document and then set
neither bracket matching nor UTF-8. -/
def IsOpening (ks : List Keyword) : Prop :=
  [.openFile, .turbo] <+: ks ∨
    [.binary, .openFile, .turbo] <+: ks ∧ .autoMatchBracket ∉ ks ∧ .utf8 ∉ ks

/-- The first document that is opened is this one. -/
def Opens (cs : List Command) (t : Text) : Prop :=
  ∃ c, cs.find? (fun c => c.keyword = .openFile) = some c ∧ c.argument.operand = .text t

/-- Six commands that save, undo, save, redo, save and exit: the depths are one number, the files
one name with three endings. The name is the target, if there is one. -/
def IsClosing (target : Option Text) (cs : List Command) : Prop :=
  ∃ (base : Text) (depth : Int), (∀ t ∈ target, base = t) ∧
    cs.map (fun c => (c.keyword, c.argument.operand)) =
      [(.saveAs, .text (base ++ Text.ofString ".test")), (.undo, .number depth),
       (.saveAs, .text (base ++ Text.ofString ".undone")), (.redo, .number depth),
       (.saveAs, .text (base ++ Text.ofString ".redone")), (.exit, .absent)]

variable {opening steps closing cs : List Command} {target : Option Text} {document : Document}

theorem opens_iff (k : Keyword) : k.opens = true ↔ k ∈ openers := by
  have hall : ∀ k ∈ Keyword.all, k.opens = true ↔ k ∈ openers := by decide +kernel
  exact hall k k.mem_all

theorem takesSample_iff (k : Keyword) : k.takesSample = true ↔ k ∈ samplers := by
  have hall : ∀ k ∈ Keyword.all, k.takesSample = true ↔ k ∈ samplers := by decide +kernel
  exact hall k k.mem_all

/-! ### Splitting -/

/-- **A script is split after the commands that may open it,** and before its last six. -/
theorem parts_append (hopening : ∀ c ∈ opening, c.keyword.opens = true)
    (hrest : ∀ c, (steps ++ closing).head? = some c → c.keyword.opens = false)
    (hlength : closing.length = Problem.closing.length) :
    parts (opening ++ (steps ++ closing)) = ⟨opening, steps, closing⟩ := by
  obtain ⟨htake, hdrop⟩ : (steps ++ closing).takeWhile (fun c => c.keyword.opens) = [] ∧
      (steps ++ closing).dropWhile (fun c => c.keyword.opens) = steps ++ closing := by
    cases hcs : steps ++ closing with
    | nil => exact ⟨rfl, rfl⟩
    | cons c cs => simp [hrest c (by rw [hcs]; rfl)]
  have hcount : (steps ++ closing).length - Problem.closing.length = steps.length := by
    rw [List.length_append, hlength, Nat.add_sub_cancel]
  unfold parts
  dsimp only
  rw [List.takeWhile_append_of_pos hopening, List.dropWhile_append_of_pos hopening, htake, hdrop,
    hcount, List.append_nil, List.take_left, List.drop_left]

/-- Nothing is lost in splitting. -/
theorem append_parts (cs : List Command) :
    (parts cs).opening ++ ((parts cs).steps ++ (parts cs).closing) = cs := by
  unfold parts
  dsimp only
  rw [List.take_append_drop, List.takeWhile_append_dropWhile]

theorem opens_of_mem_opening {c : Command} (h : c ∈ (parts cs).opening) :
    c.keyword.opens = true :=
  List.mem_takeWhile_imp (p := fun c : Command => c.keyword.opens) h

/-- The opening is as long as can be. -/
theorem not_opens_of_head? {c : Command}
    (h : ((parts cs).steps ++ (parts cs).closing).head? = some c) : c.keyword.opens = false := by
  unfold parts at h
  dsimp only at h
  rw [List.take_append_drop] at h
  have hhead := List.head?_dropWhile_not (fun c : Command => c.keyword.opens) cs
  rw [h] at hhead
  simpa using hhead

/-! ### Openings -/

theorem openingOf_eq_nil_iff {names : List Keyword} : openingOf cs names target = [] ↔
    [.openFile, .turbo] <+: names ∧ ∀ t ∈ target, ∀ c,
      cs.find? (fun c => c.keyword = .openFile) = some c → c.argument.operand = .text t := by
  have hpre : [.openFile, .turbo] <+: names ↔ names.take 2 = [.openFile, .turbo] :=
    List.prefix_iff_eq_take.trans eq_comm
  rw [hpre]
  unfold openingOf
  by_cases hnames : names.take 2 = [.openFile, .turbo]
  · rw [if_neg (not_not.2 hnames)]
    cases target <;> cases cs.find? (fun c => c.keyword = .openFile) <;> simp [hnames]
  · simp [hnames]

theorem exists_find?_of_mem {k : Keyword} (h : k ∈ keywords cs) :
    ∃ c, cs.find? (fun c => c.keyword = k) = some c := by
  obtain ⟨c, hc, hk⟩ := List.mem_map.1 h
  exact Option.isSome_iff_exists.1 (List.find?_isSome.2 ⟨c, hc, by simpa using hk⟩)

/-- **When an opening has no problem.** -/
theorem opening_eq_nil_iff : Audit.opening cs target = [] ↔
    IsOpening (keywords cs) ∧ ∀ t ∈ target, Opens cs t := by
  have hopens (h : IsOpening (keywords cs)) (t : Text) : Opens cs t ↔ ∀ c,
      cs.find? (fun c => c.keyword = .openFile) = some c → c.argument.operand = .text t := by
    have hmem : Keyword.openFile ∈ keywords cs := by
      rcases h with hpre | ⟨hpre, -⟩ <;> exact hpre.subset (by decide)
    obtain ⟨c, hc⟩ := exists_find?_of_mem hmem
    simp [Opens, hc]
  have hplain {ks : List Keyword} (hks : ks.head? ≠ some .binary) :
      IsOpening ks ↔ [.openFile, .turbo] <+: ks := by
    refine or_iff_left fun h => hks ?_
    obtain ⟨rest, rfl⟩ := h.1
    rfl
  have hbinary {names : List Keyword} : IsOpening (.binary :: names) ↔
      ¬ (.autoMatchBracket ∈ names ∨ .utf8 ∈ names) ∧ [.openFile, .turbo] <+: names := by
    simp [IsOpening, List.cons_prefix_cons, and_comm]
  unfold Audit.opening
  split
  · next names hnames =>
    split
    · next hsettings =>
      refine iff_of_false (List.cons_ne_nil _ _) fun h => ?_
      exact (hbinary.1 (hnames ▸ h.1)).1 hsettings
    · next hsettings =>
      have hiff : IsOpening (keywords cs) ↔ [.openFile, .turbo] <+: names := by
        rw [hnames, hbinary]
        exact and_iff_right hsettings
      rw [openingOf_eq_nil_iff, ← hiff]
      exact and_congr_right fun h => by simp only [hopens h]
  · next hnames =>
    have hhead : (keywords cs).head? ≠ some .binary := by
      intro hhead
      obtain ⟨rest, hrest⟩ := List.head?_eq_some_iff.1 hhead
      exact hnames rest hrest
    rw [openingOf_eq_nil_iff, ← hplain hhead]
    exact and_congr_right fun h => by simp only [hopens h]

/-! ### Closings -/

theorem depths_eq_nil_iff {undo redo : Command} : depths undo redo = [] ↔
    undo.argument.operand ≠ .absent ∧ undo.argument.operand = redo.argument.operand := by
  simp [depths]

theorem saved_eq_nil_iff {c : Command} {base : Text} {ending : String} :
    saved c base ending = [] ↔ c.argument.operand = .text (base ++ Text.ofString ending) := by
  simp [saved]

/-- Two depths have no problem exactly if they are one number. -/
theorem depths_eq_nil_iff_number {undo redo : Command} (hundo : undo.keyword.kind = .number) :
    depths undo redo = [] ↔ ∃ depth, undo.argument.operand = .number depth ∧
      redo.argument.operand = .number depth := by
  rw [depths_eq_nil_iff]
  constructor
  · rintro ⟨hne, heq⟩
    obtain ⟨depth, hdepth⟩ := (Command.operand_of_number hundo).resolve_left hne
    exact ⟨depth, hdepth, heq ▸ hdepth⟩
  · rintro ⟨depth, hdepth, hdepth'⟩
    simp [hdepth, hdepth']

/-- **When a closing has no problem.** -/
theorem closing_eq_nil_iff : Audit.closing cs target = .ok [] ↔ IsClosing target cs := by
  unfold Audit.closing
  rw [Problem.report_eq_nil_iff]
  by_cases hkeywords : keywords cs = Problem.closing
  · unfold closingProblems
    rw [if_neg (not_not.2 hkeywords)]
    simp only [keywords, Problem.closing, List.map_eq_cons_iff, List.map_eq_nil_iff] at hkeywords
    obtain ⟨test, _, rfl, htest, undo, _, rfl, hundo, undone, _, rfl, hundone, redo, _, rfl, hredo,
      redone, _, rfl, hredone, exit, _, rfl, hexit, rfl⟩ := hkeywords
    have hnumber : undo.keyword.kind = .number := by rw [hundo]; rfl
    have hnothing : exit.argument.operand = .absent :=
      Command.operand_of_nothing (by rw [hexit]; rfl)
    simp only [List.append_eq_nil_iff, depths_eq_nil_iff_number hnumber, saved_eq_nil_iff, IsClosing,
      List.map_cons, List.map_nil, List.cons.injEq, Prod.mk.injEq, htest, hundo, hundone, hredo,
      hredone, hexit, hnothing, true_and, and_true]
    constructor
    · rintro ⟨⟨⟨⟨depth, hdepth, hdepth'⟩, hsaved⟩, hsaved'⟩, hsaved''⟩
      exact ⟨_, depth, fun t ht => by rw [ht]; rfl, hsaved, hdepth, hsaved', hdepth', hsaved''⟩
    · rintro ⟨base, depth, hbase, hsaved, hdepth, hsaved', hdepth', hsaved''⟩
      -- Without a target the base is what the first name has before its ending.
      have hbase' : target.getD (Text.withoutEnding ".test" test.argument.operand.plain) = base := by
        cases target with
        | none =>
          rw [hsaved]
          exact Text.withoutEnding_append base ".test"
        | some t => exact (hbase t rfl).symm
      rw [hbase']
      exact ⟨⟨⟨⟨depth, hdepth, hdepth'⟩, hsaved⟩, hsaved'⟩, hsaved''⟩
  · refine iff_of_false ?_ ?_
    · unfold closingProblems
      rw [if_pos hkeywords]
      exact List.cons_ne_nil _ _
    · rintro ⟨base, depth, -, hcs⟩
      have hmap := congrArg (List.map Prod.fst) hcs
      rw [List.map_map] at hmap
      exact hkeywords hmap

theorem length_of_isClosing (h : IsClosing target cs) : cs.length = Problem.closing.length := by
  obtain ⟨base, depth, -, hcs⟩ := h
  rw [← List.length_map (fun c : Command => (c.keyword, c.argument.operand)), hcs]
  rfl

/-! ### All parts -/

/-- The problems of a script are those of its parts, if these can be told. -/
theorem problems_eq_ok_iff {found : List Problem} : problems cs document target = .ok found ↔
    ∃ atClipboard atClosing, clipboard (parts cs).steps = .ok atClipboard ∧
      Audit.closing (parts cs).closing target = .ok atClosing ∧
      found = Audit.opening (parts cs).opening target ++ atClipboard ++
        sampled (parts cs).steps document ++ atClosing := by
  unfold problems
  dsimp only
  cases clipboard (parts cs).steps with
  | error f => exact iff_of_false (fun h => by cases h) (by simp)
  | ok ps =>
    cases Audit.closing (parts cs).closing target with
    | error f => exact iff_of_false (fun h => by cases h) (by simp)
    | ok qs =>
      show Except.ok _ = Except.ok found ↔ _
      simp [eq_comm]

/-! ### Samples -/

/-- **When the texts from the document have no problem.** -/
theorem sampled_eq_nil_iff : sampled steps document = [] ↔
    ∀ c ∈ steps, c.keyword ∈ samplers → document.Samples c.argument := by
  unfold sampled
  rw [List.flatMap_eq_nil_iff]
  refine forall₂_congr fun c _ => ?_
  rw [← takesSample_iff]
  unfold sample Document.Samples
  cases c.keyword.takesSample with
  | false => simp
  | true =>
    rw [if_pos rfl, forall_prop_of_true rfl]
    cases c.argument with
    | quoted t =>
      simp only [← Document.holds_iff, Argument.quoted.injEq]
      cases ht : t.isEmpty <;> cases hd : document.holds t <;> simp_all
    | absent => simp
    | number n => simp
    | bare t => simp

end Audit
end UndoScript
