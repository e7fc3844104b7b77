/-
# The clipboard's history as a language

A selection that is opened is dropped, or taken into the clipboard and pasted
before the next one opens. So what a reader of the clipboard finds nothing
wrong with goes in rounds: any number of selections that are dropped, then one
that is taken and pasted, and so on from the beginning; it may stop anywhere.
With M, E, C and P for the keywords that mark, drop, take and paste, these are
the prefixes of the words of ((M E)* M C P)*.

Key definitions: `Clipboard.rounds`, `Clipboard.Allows`.
Key theorems: `Clipboard.allProblems_eq_nil_iff`, `Clipboard.allows_iff`,
`Audit.clipboard_eq_nil_iff`.
-/
import Mathlib.Computability.Language
import UndoScript.Audit.Check

namespace UndoScript
namespace Clipboard

open Computability

/-! ### The language -/

/-- The keywords that open a selection. -/
def marks : List Keyword := [.mark, .markVert]

/-- The keywords that close a selection and forget it. -/
def drops : List Keyword := [.erase, .through]

/-- The keywords that close a selection and keep it in the clipboard. -/
def takes : List Keyword := [.copy, .cut]

/-- The keywords that empty the clipboard. -/
def pastes : List Keyword := [.paste, .pasteVert]

/-- The words of one keyword out of some. -/
def oneOf (ks : List Keyword) : Language Keyword := {word | ∃ k ∈ ks, word = [k]}

/-- Selections that are dropped. -/
def detours : Language Keyword := (oneOf marks * oneOf drops)∗

/-- One selection that is taken and pasted, after any number that are dropped. -/
def round : Language Keyword := detours * (oneOf marks * (oneOf takes * oneOf pastes))

/-- Rounds, one after the other. -/
def rounds : Language Keyword := round∗

/-- The clipboard's keywords among those of some commands, in order. -/
def history (cs : List Command) : List Keyword :=
  (Audit.keywords cs).filter fun k => k ∈ marks ++ drops ++ takes ++ pastes

theorem mem_oneOf {ks : List Keyword} {k : Keyword} (h : k ∈ ks) : [k] ∈ oneOf ks := ⟨k, h, rfl⟩

theorem append_mem_kstar {l : Language Keyword} {u w : List Keyword} (hu : u ∈ l) (hw : w ∈ l∗) :
    u ++ w ∈ l∗ :=
  (mul_kstar_le_kstar : l * l∗ ≤ l∗) (Language.append_mem_mul hu hw)

/-- A round is followed by rounds. -/
theorem round_append {m c p : Keyword} {w : List Keyword} (hm : m ∈ marks) (hc : c ∈ takes)
    (hp : p ∈ pastes) (hw : w ∈ rounds) : m :: c :: p :: w ∈ rounds := by
  have hlast : [m] ++ ([c] ++ [p]) ∈ oneOf marks * (oneOf takes * oneOf pastes) :=
    Language.append_mem_mul (mem_oneOf hm) (Language.append_mem_mul (mem_oneOf hc) (mem_oneOf hp))
  have hround : [] ++ ([m] ++ ([c] ++ [p])) ∈ round :=
    Language.append_mem_mul (Language.nil_mem_kstar _) hlast
  exact append_mem_kstar hround hw

/-- A selection that is dropped is followed by rounds, if there is one to go. -/
theorem detour_append {m e : Keyword} {w : List Keyword} (hm : m ∈ marks) (he : e ∈ drops)
    (hw : w ∈ rounds) (hne : w ≠ []) : m :: e :: w ∈ rounds := by
  have hdetour : [m] ++ [e] ∈ oneOf marks * oneOf drops :=
    Language.append_mem_mul (mem_oneOf hm) (mem_oneOf he)
  obtain ⟨_ | ⟨first, others⟩, rfl, hwords⟩ := Language.mem_kstar.1 hw
  · exact absurd rfl hne
  · obtain ⟨dropped, hdropped, last, hlast, rfl⟩ :=
      Language.mem_mul.1 (hwords first List.mem_cons_self)
    have hfirst : ([m] ++ [e] ++ dropped) ++ last ∈ round :=
      Language.append_mem_mul (append_mem_kstar hdetour hdropped) hlast
    have hothers : others.flatten ∈ rounds :=
      Language.join_mem_kstar fun word hword => hwords word (List.mem_cons_of_mem _ hword)
    have hall : (([m] ++ [e] ++ dropped) ++ last) ++ others.flatten ∈ rounds :=
      append_mem_kstar hfirst hothers
    simpa using hall

/-! ### The notes of a reader -/

/-- A keyword that a reader with some notes finds nothing wrong with, and the notes after it. -/
inductive Move : ClipboardNotes → Keyword → ClipboardNotes → Prop
  | mark {k : Keyword} : k ∈ marks → Move ⟨false, false⟩ k ⟨true, false⟩
  | drop {k : Keyword} {waiting : Bool} : k ∈ drops → Move ⟨true, waiting⟩ k ⟨false, waiting⟩
  | take {k : Keyword} {waiting : Bool} : k ∈ takes → Move ⟨true, waiting⟩ k ⟨false, true⟩
  | paste {k : Keyword} : k ∈ pastes → Move ⟨false, true⟩ k ⟨false, false⟩

/-- Keywords that a reader finds nothing wrong with, one after the other. -/
inductive Allows : ClipboardNotes → List Keyword → Prop
  | nil (n : ClipboardNotes) : Allows n []
  | cons {n n' : ClipboardNotes} {k : Keyword} {ks : List Keyword} : Move n k n' →
    Allows n' ks → Allows n (k :: ks)

/-- What is allowed may stop anywhere. -/
theorem Allows.of_isPrefix {n : ClipboardNotes} {ks ls : List Keyword} (h : Allows n ks)
    (hpre : ls <+: ks) : Allows n ls := by
  induction h generalizing ls with
  | nil n =>
    obtain rfl := List.prefix_nil.1 hpre
    exact .nil n
  | cons hmove _ ih =>
    rcases List.prefix_cons_iff.1 hpre with rfl | ⟨rest, rfl, hrest⟩
    · exact .nil _
    · exact .cons hmove (ih hrest)

/-- The keywords and their parts in the clipboard's history. -/
theorem clipboardRole_iff (k : Keyword) :
    (k.clipboardRole = .mark ↔ k ∈ marks) ∧ (k.clipboardRole = .drop ↔ k ∈ drops) ∧
      (k.clipboardRole = .take ↔ k ∈ takes) ∧ (k.clipboardRole = .paste ↔ k ∈ pastes) := by
  have hall : ∀ k ∈ Keyword.all, (k.clipboardRole = .mark ↔ k ∈ marks) ∧
      (k.clipboardRole = .drop ↔ k ∈ drops) ∧ (k.clipboardRole = .take ↔ k ∈ takes) ∧
      (k.clipboardRole = .paste ↔ k ∈ pastes) := by decide +kernel
  exact hall k k.mem_all

/-- A move is what a reader finds nothing wrong with, and leads to the reader's notes. -/
theorem move_iff {n n' : ClipboardNotes} {c : Command} : Move n c.keyword n' ↔
    c.keyword.clipboardRole ≠ .none ∧ n.problems c = [] ∧ n' = n.after c := by
  obtain ⟨selecting, waiting⟩ := n
  obtain ⟨hmark, hdrop, htake, hpaste⟩ := clipboardRole_iff c.keyword
  unfold ClipboardNotes.problems ClipboardNotes.after
  constructor
  · intro h
    cases h with
    | mark hk => simp [hmark.2 hk]
    | drop hk => simp [hdrop.2 hk]
    | take hk => simp [htake.2 hk]
    | paste hk => simp [hpaste.2 hk]
  · rintro ⟨hrole, hproblems, rfl⟩
    cases hr : c.keyword.clipboardRole with
    | mark =>
      obtain ⟨rfl, rfl⟩ : selecting = false ∧ waiting = false := by simpa [hr] using hproblems
      exact .mark (hmark.1 hr)
    | drop =>
      obtain rfl : selecting = true := by simpa [hr] using hproblems
      exact .drop (hdrop.1 hr)
    | take =>
      obtain rfl : selecting = true := by simpa [hr] using hproblems
      exact .take (htake.1 hr)
    | paste =>
      obtain ⟨rfl, rfl⟩ : waiting = true ∧ selecting = false := by simpa [hr] using hproblems
      exact .paste (hpaste.1 hr)
    | none => exact absurd hr hrole

theorem history_cons (c : Command) (cs : List Command) : history (c :: cs) =
    if c.keyword.clipboardRole = .none then history cs else c.keyword :: history cs := by
  have hall : ∀ k ∈ Keyword.all,
      k.clipboardRole = .none ↔ k ∉ marks ++ drops ++ takes ++ pastes := by decide +kernel
  have hrole := hall c.keyword c.keyword.mem_all
  unfold history Audit.keywords
  rw [List.map_cons, List.filter_cons]
  split
  · next hmem => rw [if_neg fun h => hrole.1 h (of_decide_eq_true hmem)]
  · next hmem => rw [if_pos (hrole.2 fun h => hmem (decide_eq_true h))]

/-- **A reader finds nothing wrong with what the notes allow.** -/
theorem allProblems_eq_nil_iff : ∀ {n : ClipboardNotes} {cs : List Command},
    n.allProblems cs = [] ↔ Allows n (history cs)
  | n, [] => iff_of_true rfl (.nil n)
  | n, c :: cs => by
    rw [ClipboardNotes.allProblems, List.append_eq_nil_iff, allProblems_eq_nil_iff, history_cons]
    by_cases hrole : c.keyword.clipboardRole = .none
    · rw [if_pos hrole]
      simp [ClipboardNotes.problems, ClipboardNotes.after, hrole]
    · rw [if_neg hrole]
      constructor
      · rintro ⟨hproblems, hcs⟩
        exact .cons (move_iff.2 ⟨hrole, hproblems, rfl⟩) hcs
      · intro h
        cases h with
        | cons hmove hcs =>
          obtain ⟨-, hproblems, rfl⟩ := move_iff.1 hmove
          exact ⟨hproblems, hcs⟩

/-! ### The notes and the language -/

/-- What may be repeated before anything that is allowed may be repeated any number of times. -/
theorem Allows.kstar_append {n : ClipboardNotes} {l : Language Keyword}
    (hl : ∀ u ∈ l, ∀ ks, Allows n ks → Allows n (u ++ ks)) :
    ∀ u ∈ l∗, ∀ ks, Allows n ks → Allows n (u ++ ks) := by
  intro u hu
  obtain ⟨words, rfl, hwords⟩ := Language.mem_kstar.1 hu
  clear hu
  induction words with
  | nil => exact fun ks hks => hks
  | cons word words ih =>
    intro ks hks
    rw [List.flatten_cons, List.append_assoc]
    exact hl word (hwords word List.mem_cons_self) _
      (ih (fun w hw => hwords w (List.mem_cons_of_mem _ hw)) ks hks)

theorem Allows.detours_append : ∀ u ∈ detours, ∀ ks, Allows {} ks → Allows {} (u ++ ks) := by
  refine Allows.kstar_append fun u hu ks hks => ?_
  obtain ⟨_, ⟨m, hm, rfl⟩, _, ⟨e, he, rfl⟩, rfl⟩ := Language.mem_mul.1 hu
  exact .cons (.mark hm) (.cons (.drop he) hks)

/-- Rounds are allowed. -/
theorem Allows.of_mem_rounds {w : List Keyword} (h : w ∈ rounds) : Allows {} w := by
  have hround : ∀ u ∈ round, ∀ ks, Allows {} ks → Allows {} (u ++ ks) := by
    intro u hu ks hks
    obtain ⟨dropped, hdropped, last, hlast, rfl⟩ := Language.mem_mul.1 hu
    obtain ⟨_, ⟨m, hm, rfl⟩, used, hused, rfl⟩ := Language.mem_mul.1 hlast
    obtain ⟨_, ⟨c, hc, rfl⟩, _, ⟨p, hp, rfl⟩, rfl⟩ := Language.mem_mul.1 hused
    rw [List.append_assoc]
    exact detours_append dropped hdropped _
      (.cons (.mark hm) (.cons (.take hc) (.cons (.paste hp) hks)))
  have hall := Allows.kstar_append hround w h [] (.nil _)
  rwa [List.append_nil] at hall

/-- What is allowed at the start can go on to be rounds. -/
theorem Allows.exists_rounds : ∀ {ks : List Keyword}, Allows {} ks → ∃ w ∈ rounds, ks <+: w
  | [], _ => ⟨[], Language.nil_mem_kstar _, List.nil_prefix⟩
  | [m], .cons (.mark hm) _ =>
    ⟨[m, .copy, .paste], round_append hm (by decide) (by decide) (Language.nil_mem_kstar _),
      [.copy, .paste], rfl⟩
  | m :: e :: ks, .cons (.mark hm) (.cons (.drop he) hks) => by
    obtain ⟨w, hw, hpre⟩ := exists_rounds hks
    -- A detour alone is no round, so one more round is needed where nothing follows.
    rcases eq_or_ne w [] with rfl | hne
    · obtain rfl := List.prefix_nil.1 hpre
      have hround : [.mark, .copy, .paste] ∈ rounds :=
        round_append (by decide) (by decide) (by decide) (Language.nil_mem_kstar _)
      exact ⟨_, detour_append hm he hround (List.cons_ne_nil _ _), [.mark, .copy, .paste], rfl⟩
    · exact ⟨_, detour_append hm he hw hne, by simpa using hpre⟩
  | [m, c], .cons (.mark hm) (.cons (.take hc) _) =>
    ⟨[m, c, .paste], round_append hm hc (by decide) (Language.nil_mem_kstar _), [.paste], rfl⟩
  | m :: c :: p :: ks, .cons (.mark hm) (.cons (.take hc) (.cons (.paste hp) hks)) => by
    obtain ⟨w, hw, hpre⟩ := exists_rounds hks
    refine ⟨m :: c :: p :: w, round_append hm hc hp hw, ?_⟩
    simpa using hpre

theorem allows_iff {ks : List Keyword} : Allows {} ks ↔ ∃ w ∈ rounds, ks <+: w :=
  ⟨Allows.exists_rounds, fun ⟨_, hw, hpre⟩ => (Allows.of_mem_rounds hw).of_isPrefix hpre⟩

end Clipboard

/-- **A reader of the clipboard finds nothing wrong with the prefixes of rounds,** and with nothing
else. -/
theorem Audit.clipboard_eq_nil_iff {cs : List Command} :
    clipboard cs = .ok [] ↔ ∃ w ∈ Clipboard.rounds, Clipboard.history cs <+: w := by
  unfold clipboard
  rw [Problem.report_eq_nil_iff, Clipboard.allProblems_eq_nil_iff, Clipboard.allows_iff]

end UndoScript
