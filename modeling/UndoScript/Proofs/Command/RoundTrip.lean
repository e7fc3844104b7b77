/-
# Commands are read back

A command's line is read as that command: a keyword is its first word, and
what follows the space after it is the argument, unless it begins with an
indent or a quote of its own, or is a number below zero. So a script is read
back from its lines, whatever blank lines stand between them.

Key definitions: `Argument.spelled`, `Argument.ReadsBack`, `Command.Legible`.
Key theorems: `Command.parse_text`, `Command.read_of_read`, `Script.parse_eq_ok_iff`,
`Script.parse_joined`, `Script.parse_ofLines`.
-/
import Mathlib.Data.List.Forall2
import UndoScript.Proofs.Command.Layout
import UndoScript.Proofs.Text.Pieces

namespace UndoScript

namespace Argument

/-- How the argument is spelled after the space. -/
def spelled : Argument → Text
  | .absent => []
  | .number n => Numeral.written n
  | .bare t => t
  | .quoted t => .char '"' :: (t ++ [.char '"'])

@[simp] theorem spelled_number (n : Int) : (number n).spelled = Numeral.written n := rfl

@[simp] theorem spelled_bare (t : Text) : (bare t).spelled = t := rfl

@[simp] theorem spelled_quoted (t : Text) :
    (quoted t).spelled = .char '"' :: (t ++ [.char '"']) := rfl

/-- The argument is not mistaken for another: a number is not negative, a bare text starts with
neither an indent nor a quote. -/
def ReadsBack : Argument → Prop
  | .absent | .quoted _ => True
  | .number n => 0 ≤ n
  | .bare t => ∃ g rest, t = g :: rest ∧ g.isIndent = false ∧ g ≠ .char '"'

theorem readsBack_of_isWord {t : Text} (h : t.IsWord) : (bare t).ReadsBack := by
  cases t with
  | nil => exact absurd rfl h.1
  | cons g rest =>
    have hg := h.2 g List.mem_cons_self
    exact ⟨g, rest, rfl, Glyph.isIndent_of_isInk hg, Glyph.ne_of_isInk hg (by decide)⟩

end Argument

theorem Numeral.written_of_nonneg {n : Int} (h : 0 ≤ n) : written n = digits n.natAbs := by
  unfold written
  rw [if_neg (Int.not_lt.2 h)]

/-! ### Capital letters -/

theorem Keyword.capitals_name (k : Keyword) :
    (Text.ofString k.name).capitals = Text.ofString k.name := by
  have capital : ∀ k ∈ all, (Text.ofString k.name).capitals = Text.ofString k.name := by
    decide +kernel
  exact capital k (mem_all k)

namespace Command

/-! ### The two halves of a line -/

theorem text_eq (c : Command) : c.text = Text.ofString c.keyword.name ++
    if c.argument = .absent then [] else .char ' ' :: c.argument.spelled := by
  unfold text
  cases c.argument <;> simp [Argument.spelled] <;> rfl

theorem ne_space_of_mem_name {k : Keyword} : ∀ g ∈ Text.ofString k.name, g ≠ .char ' ' :=
  fun g hg => Glyph.ne_of_isInk (k.isInk_name g hg) (by decide)

/-- A line that starts with a keyword's name starts without indent. -/
theorem isIndent_of_head?_name {k : Keyword} {rest : Text} :
    ∀ g, (Text.ofString k.name ++ rest).head? = some g → g.isIndent = false := by
  intro g hg
  obtain ⟨first, others, hname⟩ := List.exists_cons_of_ne_nil k.name_ne_nil
  have hfirst := k.isInk_name first (hname ▸ List.mem_cons_self)
  obtain rfl : first = g := by simpa [hname] using hg
  exact Glyph.isIndent_of_isInk hfirst

/-! ### Lines -/

theorem newline_not_mem_written (n : Int) : Glyph.newline ∉ Numeral.written n := by
  have hdigits := (Numeral.isInk_digits n.natAbs).newline_not_mem
  unfold Numeral.written
  split
  · rw [List.mem_cons, not_or]
    exact ⟨by decide, hdigits⟩
  · exact hdigits

theorem newline_not_mem_spelled (c : Command) : Glyph.newline ∉ c.argument.spelled := by
  have hfits := c.fits
  have hquote : Glyph.newline ≠ .char '"' := by decide
  cases h : c.argument with
  | absent => exact List.not_mem_nil
  | number n => exact newline_not_mem_written n
  | bare t =>
    rw [h] at hfits
    exact hfits.2
  | quoted t =>
    rw [h] at hfits
    simp [Argument.spelled, hquote, hfits.2]

/-- A command is one line. -/
theorem newline_not_mem_text (c : Command) : Glyph.newline ∉ c.text := by
  have hspace : Glyph.newline ≠ .char ' ' := by decide
  rw [text_eq, List.mem_append, not_or]
  refine ⟨c.keyword.isInk_name.newline_not_mem, ?_⟩
  split
  · exact List.not_mem_nil
  · rw [List.mem_cons, not_or]
    exact ⟨hspace, c.newline_not_mem_spelled⟩

/-- A command's line is not blank. -/
theorem isBlank_text (c : Command) : c.text.isBlank = false := by
  obtain ⟨g, hg⟩ := List.exists_mem_of_ne_nil _ c.keyword.name_ne_nil
  have hmem : g ∈ c.text := by
    rw [text_eq]
    exact List.mem_append_left _ hg
  have hblank := Glyph.isBlank_of_isInk (c.keyword.isInk_name g hg)
  unfold Text.isBlank
  rw [List.all_eq_false]
  exact ⟨g, hmem, by rw [hblank]; decide⟩

/-- A command's line spells its keyword and its argument, if the argument has no indent. -/
theorem spells_text {c : Command}
    (hhead : ∀ g, c.argument.spelled.head? = some g → g.isIndent = false) :
    Spells c.text c.keyword c.argument.spelled := by
  have hends : c.text.getLast? ≠ some .newline := fun h =>
    c.newline_not_mem_text (List.mem_of_getLast? h)
  by_cases hc : c.argument = .absent
  · have htext : c.text = Text.ofString c.keyword.name := by rw [text_eq, if_pos hc, List.append_nil]
    rw [htext] at hends ⊢
    refine ⟨{
      indent := [], word := Text.ofString c.keyword.name, gap := [], rest := [], feeds := []
      line_eq := by simp
      indent_all := by simp
      word_head := isIndent_of_head?_name
      word_solid := ne_space_of_mem_name
      gap_head := .inr ⟨rfl, rfl⟩
      gap_all := by simp
      rest_head := by simp
      ends := by simpa using hends
      feeds_all := by simp }, c.keyword.capitals_name, by rw [hc]; rfl⟩
  · have htext : c.text = Text.ofString c.keyword.name ++ ([.char ' '] ++ c.argument.spelled) := by
      rw [text_eq, if_neg hc]
      rfl
    rw [htext] at hends ⊢
    exact ⟨{
      indent := [], word := Text.ofString c.keyword.name, gap := [.char ' ']
      rest := c.argument.spelled, feeds := []
      line_eq := by simp
      indent_all := by simp
      word_head := isIndent_of_head?_name
      word_solid := ne_space_of_mem_name
      gap_head := .inl rfl
      gap_all := by decide
      rest_head := hhead
      ends := hends
      feeds_all := by simp }, c.keyword.capitals_name, rfl⟩

/-! ### Reading a command back -/

/-- A text is between quotes if it is between the first glyph and the last, and these are quotes. -/
theorem unquote?_eq_some_iff {rest t : Text} (h : rest.head? = some (.char '"')) :
    unquote? rest = some t ↔ rest = .char '"' :: (t ++ [.char '"']) := by
  obtain ⟨more, rfl⟩ := List.head?_eq_some_iff.1 h
  rcases List.eq_nil_or_concat more with rfl | ⟨inside, last, rfl⟩
  · simp [unquote?]
  · have hlast : (Glyph.char '"' :: (inside ++ [last])).getLast? = some last := by
      rw [← List.cons_append, List.getLast?_concat]
    by_cases hquote : last = .char '"'
    · subst hquote
      simp [unquote?, hlast]
    · simp [unquote?, hlast, hquote]

/-- After a keyword that takes a text, what is between quotes is read as a quoted text, -/
theorem parseArgument_quoted {k : Keyword} (hkind : k.kind = .string) (lineno : Int)
    (line t : Text) : parseArgument lineno line k (.char '"' :: (t ++ [.char '"'])) = string k t := by
  unfold parseArgument
  rw [hkind]
  dsimp only
  rw [if_pos List.head?_cons, (unquote?_eq_some_iff List.head?_cons).2 rfl]

/-- and what does not start with a quote as a bare one. -/
theorem parseArgument_bare {k : Keyword} {t : Text} (hkind : k.kind = .string)
    (hquote : t.head? ≠ some (.char '"')) (lineno : Int) (line : Text) :
    parseArgument lineno line k t = make k (.bare t) := by
  unfold parseArgument
  rw [hkind]
  dsimp only
  rw [if_neg hquote]

/-- An argument that reads back is read back from how it is spelled. -/
theorem parseArgument_spelled {c : Command} (hread : c.argument.ReadsBack) (hrenders : c.Renders)
    (hne : c.argument ≠ .absent) (lineno : Int) (line : Text) :
    parseArgument lineno line c.keyword c.argument.spelled = .ok c := by
  obtain ⟨k, a, hfits⟩ := c
  dsimp only at hread hne ⊢
  cases a with
  | absent => exact absurd rfl hne
  | number n =>
    have hkind : k.kind = .number := hfits
    have hwritable : (Numeral.digits n.natAbs).length ≤ Numeral.limit := hrenders
    have hn : ((Numeral.value (Numeral.digits n.natAbs) : Nat) : Int) = n := by
      rw [Numeral.value_digits, Int.natAbs_of_nonneg hread]
    unfold parseArgument
    rw [hkind]
    dsimp only
    rw [Argument.spelled_number, Numeral.written_of_nonneg hread,
      if_pos (Numeral.isNumeral_digits _), if_pos hwritable, hn]
    exact make_of_fits hfits
  | bare t =>
    obtain ⟨g, rest, rfl, -, hquote⟩ := hread
    rw [Argument.spelled_bare, parseArgument_bare hfits.1 (by simpa using hquote)]
    exact make_of_fits hfits
  | quoted t =>
    rw [Argument.spelled_quoted, parseArgument_quoted hfits.1]
    exact make_of_fits hfits

theorem isIndent_of_head?_spelled {c : Command} (hread : c.argument.ReadsBack) :
    ∀ g, c.argument.spelled.head? = some g → g.isIndent = false := by
  intro g hg
  cases h : c.argument with
  | absent =>
    rw [h] at hg
    cases hg
  | number n =>
    rw [h] at hread hg
    rw [Argument.spelled_number, Numeral.written_of_nonneg hread] at hg
    exact Glyph.isIndent_of_isInk (Numeral.isInk_digits _ g (List.mem_of_head? hg))
  | bare t =>
    rw [h] at hread hg
    obtain ⟨g', rest, rfl, hindent, -⟩ := hread
    obtain rfl : g' = g := by simpa [Argument.spelled] using hg
    exact hindent
  | quoted t =>
    rw [h] at hg
    obtain rfl : .char '"' = g := by simpa [Argument.spelled] using hg
    decide

theorem spelled_ne_nil {c : Command} (hread : c.argument.ReadsBack) (hne : c.argument ≠ .absent) :
    c.argument.spelled ≠ [] := by
  cases h : c.argument with
  | absent => exact absurd h hne
  | number n =>
    rw [Argument.spelled, Numeral.written]
    split
    · exact List.cons_ne_nil _ _
    · exact Numeral.digits_ne_nil _
  | bare t =>
    rw [h] at hread
    obtain ⟨g, rest, rfl, -⟩ := hread
    exact List.cons_ne_nil _ _
  | quoted t => exact List.cons_ne_nil _ _

/-- **A command is read back from its line.** -/
theorem parse_text {c : Command} (hread : c.argument.ReadsBack) (hrenders : c.Renders)
    (lineno : Int) : parse c.text lineno = .ok c := by
  rw [parse_eq_ok_iff, read_of_spells (spells_text (isIndent_of_head?_spelled hread))]
  by_cases hc : c.argument = .absent
  · obtain ⟨k, a, hfits⟩ := c
    obtain rfl : a = .absent := hc
    rfl
  · rw [if_neg (by simpa using spelled_ne_nil hread hc)]
    exact parseArgument_spelled hread hrenders hc lineno _

/-! ### The number of a line -/

theorem parseArgument_of_parseArgument {n m : Int} {line rest : Text} {k : Keyword} {c : Command}
    (h : parseArgument n line k rest = .ok c) : parseArgument m line k rest = .ok c := by
  unfold parseArgument at h ⊢
  cases hkind : k.kind with
  | nothing =>
    rw [hkind] at h
    cases h
  | number =>
    rw [hkind] at h
    dsimp only at h ⊢
    split at h
    · next hnumeral =>
      split at h
      · next hlength => rwa [if_pos hnumeral, if_pos hlength]
      · cases h
    · cases h
  | string =>
    rw [hkind] at h
    dsimp only at h ⊢
    split at h
    · next hquote =>
      rw [if_pos hquote]
      split at h
      · exact h
      · cases h
    · next hquote => rwa [if_neg hquote]

/-- What a line spells does not depend on its number. -/
theorem read_of_read {n : Int} {line : Text} {c : Command} (h : read line n = .ok c) (m : Int) :
    read line m = .ok c := by
  unfold read at h ⊢
  dsimp only at h ⊢
  split at h
  · cases h
  · split at h
    · next hrest => rwa [if_pos hrest]
    · next hrest =>
      rw [if_neg hrest]
      exact parseArgument_of_parseArgument h

/-- So it is the same whether a script or the line alone is read. -/
theorem read_eq_ok_iff_parse {n : Int} {line : Text} {c : Command} :
    read line n = .ok c ↔ ∀ m, parse line m = .ok c :=
  ⟨fun h m => parse_eq_ok_iff.2 (read_of_read h m), fun h => parse_eq_ok_iff.1 (h n)⟩

/-! ### Reading a script back -/

/-- The command is read back from its line. -/
def Legible (c : Command) : Prop := c.argument.ReadsBack ∧ c.Renders

/-- Commands are written if every one of them can be. -/
theorem renderAll_eq : ∀ cs : List Command, renderAll cs =
    if ∀ c ∈ cs, c.Renders then .ok (cs.map text) else .error .numberTooLarge
  | [] => rfl
  | c :: cs => by
    have hcs := renderAll_eq cs
    unfold renderAll at hcs ⊢
    rw [List.mapM_cons, hcs, render]
    by_cases hc : c.Renders
    · by_cases hrest : ∀ d ∈ cs, d.Renders
      · have hall : ∀ d ∈ c :: cs, d.Renders := by simpa using ⟨hc, hrest⟩
        rw [if_pos hc, if_pos hrest, if_pos hall]
        rfl
      · have hall : ¬ ∀ d ∈ c :: cs, d.Renders := fun h =>
          hrest fun d hd => h d (List.mem_cons_of_mem c hd)
        rw [if_pos hc, if_neg hrest, if_neg hall]
        rfl
    · have hall : ¬ ∀ d ∈ c :: cs, d.Renders := fun h => hc (h c List.mem_cons_self)
      rw [if_neg hc, if_neg hall]
      rfl

end Command

namespace Script

/-- A list that does not fail is read member by member. -/
theorem mapM_eq_ok_iff {α β : Type} {read : α → Except Fault β} : ∀ {as : List α} {bs : List β},
    as.mapM read = .ok bs ↔ List.Forall₂ (fun a b => read a = .ok b) as bs
  | [], bs => by
    rw [List.mapM_nil, List.forall₂_nil_left_iff]
    exact ⟨fun h => (Except.ok.inj h).symm, fun h => congrArg Except.ok h.symm⟩
  | a :: as, bs => by
    rw [List.mapM_cons, List.forall₂_cons_left_iff]
    cases ha : read a with
    | error g => exact iff_of_false (fun h => by cases h) (by simp)
    | ok b =>
      cases hrest : as.mapM read with
      | error g =>
        refine iff_of_false (fun h => by cases h) ?_
        rintro ⟨_, bs', -, hbs, -⟩
        rw [← mapM_eq_ok_iff, hrest] at hbs
        cases hbs
      | ok bs' =>
        simp only [← mapM_eq_ok_iff, hrest]
        constructor
        · intro h
          cases h
          exact ⟨b, bs', rfl, rfl, rfl⟩
        · rintro ⟨_, _, hb, hbs, rfl⟩
          cases hb
          cases hbs
          rfl

/-- The lines that are numbered are the pieces that are not blank. -/
theorem map_numberedLines (text : Text) :
    (numberedLines text).map Prod.fst = text.pieces.filter fun line => !line.isBlank := by
  have hpieces : ((text.pieces.zipIdx 1).map Prod.fst).filter (fun line => !line.isBlank) =
      text.pieces.filter fun line => !line.isBlank := by rw [List.zipIdx_map_fst]
  rw [← hpieces, List.filter_map]
  rfl

/-- **A script is the commands of its lines,** blank ones left out. -/
theorem parse_eq_ok_iff {text : Text} {cs : List Command} : parse text = .ok cs ↔
    List.Forall₂ (fun line c => ∀ n, Command.parse line n = .ok c)
      (text.pieces.filter fun line => !line.isBlank) cs := by
  rw [← map_numberedLines, List.forall₂_map_left_iff]
  unfold parse
  rw [mapM_eq_ok_iff]
  simp only [Command.read_eq_ok_iff_parse]

/-- A command of a script is one of its lines. -/
theorem exists_line_of_mem {text : Text} {cs : List Command} {c : Command}
    (h : parse text = .ok cs) (hc : c ∈ cs) : ∃ line, ∀ n, Command.parse line n = .ok c := by
  have hlines := parse_eq_ok_iff.1 h
  obtain ⟨i, hi, rfl⟩ := List.mem_iff_getElem.1 hc
  exact ⟨_, hlines.get (hlines.length_eq ▸ hi) hi⟩

/-- The line of a command is a script of one line. -/
theorem numberedLines_text (c : Command) : numberedLines c.text = [(c.text, 1)] := by
  unfold numberedLines
  rw [Text.pieces_of_not_mem c.newline_not_mem_text]
  simp [c.isBlank_text]

/-- **A script is read back from its lines,** and blank ones do not matter. -/
theorem parse_of_pieces {text : Text} {cs : List Command}
    (hpieces : text.pieces.filter (fun p => !p.isBlank) = cs.map Command.text)
    (hcs : ∀ c ∈ cs, c.Legible) : parse text = .ok cs := by
  rw [parse_eq_ok_iff, hpieces, List.forall₂_map_left_iff, List.forall₂_same]
  exact fun c hc => Command.parse_text (hcs c hc).1 (hcs c hc).2

/-- Lines of commands are not blank. -/
theorem filter_map_text (cs : List Command) :
    (cs.map Command.text).filter (fun p => !p.isBlank) = cs.map Command.text := by
  rw [List.filter_eq_self]
  intro p hp
  obtain ⟨c, -, rfl⟩ := List.mem_map.1 hp
  rw [c.isBlank_text]
  rfl

theorem newline_not_mem_of_mem_map_text {cs : List Command} :
    ∀ l ∈ cs.map Command.text, Glyph.newline ∉ l := by
  intro l hl
  obtain ⟨c, -, rfl⟩ := List.mem_map.1 hl
  exact c.newline_not_mem_text

/-- A script joined by line feeds is read back. -/
theorem parse_joined {cs : List Command} (hne : cs ≠ []) (hcs : ∀ c ∈ cs, c.Legible) :
    parse (Text.joined [.newline] (cs.map Command.text)) = .ok cs := by
  apply parse_of_pieces _ hcs
  rw [Text.pieces_joined (by simpa using hne) newline_not_mem_of_mem_map_text, filter_map_text]

/-- A script of whole lines is read back. -/
theorem parse_ofLines {cs : List Command} (hcs : ∀ c ∈ cs, c.Legible) :
    parse (Text.ofLines (cs.map Command.text)) = .ok cs := by
  apply parse_of_pieces _ hcs
  rw [Text.pieces_ofLines newline_not_mem_of_mem_map_text, List.filter_append, filter_map_text]
  simp [Text.isBlank]

end Script
end UndoScript
