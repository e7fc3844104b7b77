/-
# A script that was generated passes the check

Whatever was drawn, and whatever happened to the session before, the lines of
a script are read back as its commands, the check splits them where they were
put together, and finds no problem.

Key theorems: `Session.script_checks`.
-/
import UndoScript.Proofs.Audit.Parts
import UndoScript.Proofs.Session.Script

namespace UndoScript

/-- What is read back as a script has no problem. -/
theorem Setting.ScriptParts.check_eq {s : Setting} {n : Nat} {opening closing : List Command}
    {ts : List Step} {text : Text} {target : Option Text} (h : s.ScriptParts n opening ts closing)
    (hread : Script.parse text = .ok (opening ++ ((ts.map Step.commands).flatten ++ closing)))
    (ht : target = none ∨ target = some s.target) :
    Audit.check text s.document target = .ok [] := by
  unfold Audit.check
  rw [hread]
  dsimp only
  rw [h.problems_eq_nil ht]

namespace Session

variable {σ : Type} [Source σ]

/-- **A script passes the check.** With any source and after any history, a session writes the
script; joined by line feeds, with one at the end or not, its lines pass the check, the target
known or not, and the check's parts are the opening, the groups of the steps and the closing, as
the session made them. -/
theorem script_checks {s : Session σ} {value : Literal} {n : Nat}
    (hd : s.setting.document.Unbroken) (ht : Glyph.newline ∉ s.setting.target)
    (hvalue : StepCount.Accepts value n) (hn : n = 0 ∨ s.setting.document.hasContent = true)
    (hshort : s.setting.Short n) :
    ∃ lines opening groups closing s₁ s₂,
      (script value).run s = (.ok lines, s₂) ∧
      start.run s = (.ok opening, s₁) ∧ (Session.groups n).run s₁ = (.ok groups, s₂) ∧
      Session.closing.run s₂ = (.ok closing, s₂) ∧ groups.length = n ∧ closing.length = 6 ∧
      ∀ text ∈ [Text.joined "\n" lines, Text.joined "\n" lines ++ Text.ofString "\n"],
        Audit.check text s.setting.document none = .ok [] ∧
        Audit.check text s.setting.document (some s.setting.target) = .ok [] ∧
        ∃ commands, Script.parse text = .ok commands ∧
          Audit.parts commands = ⟨opening, groups.flatten, closing⟩ := by
  obtain ⟨opening, ts, closing, s₁, s₂, hstart, hgroups, hclosing, hparts⟩ :=
    exists_parts hd ht hn
  have hlegible := hparts.legible hshort
  have hcount : s.setting.stepCount value = .ok n := Setting.stepCount_eq_ok_iff.2 ⟨hvalue, hn⟩
  have hscript := run_script hcount hstart hgroups hclosing fun c hc => (hlegible c hc).2
  rw [excess_of_lt hshort.steps] at hscript
  have hsix : closing.length = 6 := Audit.length_of_closing hparts.closes
  have hne : opening ++ ((ts.map Step.commands).flatten ++ closing) ≠ [] := by
    intro hnil
    simp only [List.append_eq_nil_iff] at hnil
    rw [hnil.2.2] at hsix
    cases hsix
  have hne' : (opening ++ ((ts.map Step.commands).flatten ++ closing)).map Command.text ≠ [] := by
    simpa using hne
  refine ⟨_, opening, _, closing, s₁, s₂, hscript, hstart, hgroups, hclosing,
    by rw [List.length_map, hparts.length], hsix, fun text htext => ?_⟩
  have hread : Script.parse text =
      .ok (opening ++ ((ts.map Step.commands).flatten ++ closing)) := by
    rcases List.mem_cons.1 htext with rfl | htext
    · exact Script.parse_joined hne hlegible
    · obtain rfl := List.mem_singleton.1 htext
      show Script.parse (Text.joined [.newline] _ ++ [.newline]) = _
      rw [Text.joined_append_newline hne']
      exact Script.parse_ofLines hlegible
  exact ⟨hparts.check_eq hread (.inl rfl), hparts.check_eq hread (.inr rfl), _, hread,
    hparts.parts_eq⟩

/-- Six steps over two lines, with a clipboard that is filled and pasted, pass the check. -/
theorem script_checks_of_six_steps : ∃ (s s' : Session Tape) (lines : List Text),
    s.setting = ⟨.ofText "Alice met\n2 (old) cats\n", "a/tale.txt", .standard⟩ ∧
    (script (.whole 6)).run s = (.ok lines, s') ∧
    (lines.drop 3).take 9 = (["UTF8 1", "INSERTSTRING \"2 (old) cats\"", "FINDREGEXP [A-Z][a-z]+",
      "REPLACEONCE \"(old\"", "MARKVERT", "COPY", "UNDO 1", "REDO 1", "PASTEVERT"] : List Text) ∧
    Audit.check (Text.joined "\n" lines) s.setting.document (some s.setting.target) = .ok [] := by
  let s : Session Tape := ofSetting ⟨.ofText "Alice met\n2 (old) cats\n", "a/tale.txt", .standard⟩
    ⟨[1, 99, 2, 1, 40, 3, 0, 1, 1, 2, 3, 30, 0, 1, 30, 0, 0, 49, 5, 1, 30, 0, 1], []⟩
  have hshort : s.setting.Short 6 := .of_lt (by decide) (by decide) (by decide) (by decide)
  have hlines : ((script (.whole 6)).run s).1.toOption.map (fun lines => (lines.drop 3).take 9) =
      some (["UTF8 1", "INSERTSTRING \"2 (old) cats\"", "FINDREGEXP [A-Z][a-z]+",
        "REPLACEONCE \"(old\"", "MARKVERT", "COPY", "UNDO 1", "REDO 1", "PASTEVERT"] :
          List Text) := by
    simp only [s]
    decide +kernel
  obtain ⟨lines, _, _, _, _, s', hscript, -, -, -, -, -, hcheck⟩ :=
    @script_checks Tape _ s (.whole 6) 6 (Document.unbroken_ofText _) (by decide) (.whole 6)
      (.inr (by decide)) hshort
  rw [hscript] at hlines
  exact ⟨s, s', lines, rfl, hscript, Option.some.inj hlines, (hcheck _ List.mem_cons_self).2.1⟩

end Session
end UndoScript
