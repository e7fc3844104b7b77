/-
# A stream taken in pieces

A stream of a script that nothing else disturbs gives out what the script
makes in one go, however it is cut into pulls: the commands taken are the
first ones made, the stream has ended once more is asked for than was made,
and then it has failed as the script does and left the session as the script
leaves it. It never runs ahead: the session is what the opening and the steps
up to the one that made the last command have left, and nothing has been
forgotten or drawn before the first.

Key definitions: `Stream.Pulled`, `Stream.pull`, `Stream.pulls`,
`Stream.Delivers`, `Session.HasRunFor`.
Key theorems: `Stream.take_eq_pull`, `Stream.pulls_eq_pull`,
`Session.Makes.exists_delivers`, `Session.pulls_follow_script`.
-/
import UndoScript.Proofs.Session.Making

namespace UndoScript
namespace Stream

/-- What pulls came to: the commands taken and the failures, in order, and what remains. -/
structure Pulled (σ : Type) where
  commands : List Command
  faults : List Fault
  stream : Stream
  session : Session σ

variable {σ : Type}

/-- More is pulled from what remains. -/
def Pulled.andThen (p : Pulled σ) (more : Stream → Session σ → Pulled σ) : Pulled σ :=
  let rest := more p.stream p.session
  ⟨p.commands ++ rest.commands, p.faults ++ rest.faults, rest.stream, rest.session⟩

variable [Source σ]

/-- Takes up to `k` commands, and keeps those taken before a failure. -/
def pull : Nat → Stream → Session σ → Pulled σ
  | 0, stream, s => ⟨[], [], stream, s⟩
  | k + 1, stream, s =>
    match stream.next s with
    | ((.error f, stream), s) => ⟨[], [f], stream, s⟩
    | ((.ok none, stream), s) => ⟨[], [], stream, s⟩
    | ((.ok (some c), stream), s) =>
      let rest := pull k stream s
      { rest with commands := c :: rest.commands }

/-- Pulls one after the other, whether they fail or not. -/
def pulls : List Nat → Stream → Session σ → Pulled σ
  | [], stream, s => ⟨[], [], stream, s⟩
  | k :: ks, stream, s => (pull k stream s).andThen (pulls ks)

variable {stream stream' after : Stream} {s s₁ s₂ s' : Session σ} {cs pending : List Command}
  {ss : List (Session σ)} {fault : Option Fault} {f : Fault} {left n : Nat}

/-- What is taken is what is pulled, but for the commands that a failure loses. -/
theorem take_eq_pull (k : Nat) (stream : Stream) (s : Session σ) : stream.take k s =
    ((match (pull k stream s).faults with
      | [] => .ok (pull k stream s).commands
      | f :: _ => .error f, (pull k stream s).stream), (pull k stream s).session) := by
  induction k generalizing stream s with
  | zero => rfl
  | succ k ih =>
    unfold take pull
    rcases stream.next s with ⟨⟨f | _ | c, after⟩, s₁⟩
    · rfl
    · rfl
    · dsimp only
      rw [ih]
      cases (pull k after s₁).faults <;> rfl

/-! ### Where a pull stops does not matter -/

omit [Source σ] in
theorem takeClosing_ended {cs : List Command} {r : Except Fault (Option Command)}
    (h : takeClosing n s cs = (r, after)) (hr : ∀ c, r ≠ .ok (some c)) : after = .ended := by
  cases cs with
  | nil => exact (congrArg Prod.snd h).symm
  | cons c cs => exact absurd (congrArg Prod.fst h).symm (hr c)

omit [Source σ] in
/-- A part that fails ends the stream, and otherwise it ends as what was taken does. -/
theorem goOn_ended {part : Except Fault (List Command) × Session σ}
    {taken : List Command → Session σ → Taken × Session σ} {r : Except Fault (Option Command)}
    (h : goOn part taken = ((r, after), s'))
    (htaken : ∀ cs s, taken cs s = ((r, after), s') → after = .ended) : after = .ended := by
  rcases part with ⟨f | cs, s⟩
  · exact (congrArg (·.1.2) h).symm
  · exact htaken cs s h

theorem takeRunning_ended {cs : List Command} {left : Nat} {r : Except Fault (Option Command)}
    (h : takeRunning n cs left s = ((r, after), s')) (hr : ∀ c, r ≠ .ok (some c)) :
    after = .ended := by
  induction left generalizing cs s with
  | zero =>
    cases cs with
    | cons c cs => exact absurd (congrArg (·.1.1) h).symm (hr c)
    | nil => exact goOn_ended h fun cs s h => takeClosing_ended (congrArg Prod.fst h) hr
  | succ left ih =>
    cases cs with
    | cons c cs => exact absurd (congrArg (·.1.1) h).symm (hr c)
    | nil => exact goOn_ended h fun cs s h => ih h

/-- A stream that gives no command has ended. -/
theorem ended_of_next {r : Except Fault (Option Command)}
    (h : stream.next s = ((r, after), s')) (hr : ∀ c, r ≠ .ok (some c)) : after = .ended := by
  cases stream with
  | ready n => exact goOn_ended h fun cs s h => takeRunning_ended h hr
  | running n pending left => exact takeRunning_ended h hr
  | closing n pending => exact takeClosing_ended (congrArg Prod.fst h) hr
  | ended => exact (congrArg (·.1.2) h).symm

@[simp] theorem pull_ended (k : Nat) (s : Session σ) : pull k .ended s = ⟨[], [], .ended, s⟩ := by
  cases k <;> rfl

/-- A pull can be cut in two. -/
theorem pull_add (j k : Nat) (stream : Stream) (s : Session σ) :
    pull (j + k) stream s = (pull j stream s).andThen (pull k) := by
  induction j generalizing stream s with
  | zero => rw [Nat.zero_add]; rfl
  | succ j ih =>
    rw [Nat.succ_add]
    unfold pull
    rcases hnext : stream.next s with ⟨⟨f | _ | c, after⟩, s₁⟩
    · obtain rfl := ended_of_next hnext fun c => nofun
      simp [Pulled.andThen]
    · obtain rfl := ended_of_next hnext fun c => nofun
      simp [Pulled.andThen]
    · dsimp only
      rw [ih]
      rfl

/-- **Pulls come to what one pull does** of as many commands as they ask for together. -/
theorem pulls_eq_pull (ks : List Nat) (stream : Stream) (s : Session σ) :
    pulls ks stream s = pull ks.sum stream s := by
  induction ks generalizing stream s with
  | nil => rfl
  | cons k ks ih =>
    rw [List.sum_cons, pull_add]
    exact congrArg (pull k stream s).andThen (funext fun stream => funext fun s => ih stream s)

/-! ### What a stream delivers -/

/-- Taken from until it ends, the stream gives out these commands, with these sessions when each is
taken, and ends with this failure or none, and this session. -/
inductive Delivers : Stream → Session σ → List Command → List (Session σ) → Option Fault →
    Session σ → Prop
  | ended {stream : Stream} {s s' : Session σ} : stream.next s = ((.ok none, .ended), s') →
    Delivers stream s [] [] none s'
  | failed {stream : Stream} {s s' : Session σ} {f : Fault} :
    stream.next s = ((.error f, .ended), s') → Delivers stream s [] [] (some f) s'
  | taken {stream after : Stream} {s s₁ s' : Session σ} {c : Command} {cs : List Command}
    {ss : List (Session σ)} {fault : Option Fault} :
    stream.next s = ((.ok (some c), after), s₁) → after ≠ .ended →
    Delivers after s₁ cs ss fault s' → Delivers stream s (c :: cs) (s₁ :: ss) fault s'

/-- No more is pulled than was asked for, and no further than to the last command. -/
theorem Delivers.pull_of_le (h : Delivers stream s cs ss fault s') (hstream : stream ≠ .ended)
    {k : Nat} (hk : k ≤ cs.length) :
    (pull k stream s).commands = cs.take k ∧ (pull k stream s).faults = [] ∧
      (pull k stream s).stream ≠ .ended ∧ (s :: ss)[k]? = some (pull k stream s).session := by
  induction h generalizing k with
  | ended | failed =>
    obtain rfl : k = 0 := Nat.le_zero.1 hk
    exact ⟨rfl, rfl, hstream, rfl⟩
  | taken hnext hafter _ ih =>
    cases k with
    | zero => exact ⟨rfl, rfl, hstream, rfl⟩
    | succ k =>
      obtain ⟨hcommands, hfaults, hopen, hsession⟩ := ih hafter (Nat.le_of_succ_le_succ hk)
      unfold pull
      rw [hnext]
      exact ⟨congrArg _ hcommands, hfaults, hopen, hsession⟩

/-- Whoever asks for more gets everything, and the failure if there is one. -/
theorem Delivers.pull_of_lt (h : Delivers stream s cs ss fault s') {k : Nat} (hk : cs.length < k) :
    pull k stream s = ⟨cs, fault.toList, .ended, s'⟩ := by
  induction h generalizing k with
  | ended hnext | failed hnext =>
    cases k with
    | zero => exact absurd hk (Nat.not_lt_zero _)
    | succ k =>
      unfold pull
      rw [hnext]
      rfl
  | taken hnext _ _ ih =>
    cases k with
    | zero => exact absurd hk (Nat.not_lt_zero _)
    | succ k =>
      unfold pull
      rw [hnext]
      dsimp only
      rw [ih (Nat.lt_of_succ_lt_succ hk)]

/-! ### From the end to the beginning -/

/-- A stream that goes on as another does delivers the same. -/
theorem Delivers.of_next_eq (hnext : stream.next s = stream'.next s₁)
    (h : Delivers stream' s₁ cs ss fault s') : Delivers stream s cs ss fault s' := by
  cases h with
  | ended hend => exact .ended (hnext.trans hend)
  | failed hfail => exact .failed (hnext.trans hfail)
  | taken htaken hafter hrest => exact .taken (hnext.trans htaken) hafter hrest

theorem delivers_closing (s : Session σ) : ∀ cs : List Command,
    Delivers (.closing n cs) s cs (cs.map fun _ => s) (Fault.of (s.summary n)) s
  | [] => by
    have hnext := next_closing_nil (n := n) s
    cases hsummary : s.summary n <;> rw [hsummary] at hnext
    case ok => exact .ended hnext
    case error => exact .failed hnext
  | _ :: cs => .taken rfl nofun (delivers_closing s cs)

/-- Commands that are made are delivered without any work. -/
theorem Delivers.of_pending (h : Delivers (.running n [] left) s cs ss fault s') :
    ∀ pending : List Command, Delivers (.running n pending left) s (pending ++ cs)
      ((pending.map fun _ => s) ++ ss) fault s'
  | [] => h
  | _ :: pending => .taken next_running_cons nofun (h.of_pending pending)

/-- Steps that are used up are followed by the closing commands. -/
theorem delivers_last (hclosing : Session.closing.run s = (.ok cs, s')) :
    Delivers (.running n [] 0) s cs (cs.map fun _ => s') (Fault.of (s'.summary n)) s' :=
  (delivers_closing s' cs).of_next_eq (next_running_zero hclosing)

/-- A step that fails ends the stream. -/
theorem delivers_broken (hstep : Session.step.run s = (.error f, s')) :
    Delivers (.running n [] (left + 1)) s [] [] (some f) s' := by
  refine .failed ?_
  show goOn (Session.step.run s) _ = _
  rw [hstep]
  rfl

/-- A step is followed by the rest. -/
theorem Delivers.of_step (hstep : Session.step.run s = (.ok pending, s₁))
    (h : Delivers (.running n [] left) s₁ cs ss fault s') :
    Delivers (.running n [] (left + 1)) s (pending ++ cs) ((pending.map fun _ => s₁) ++ ss) fault
      s' :=
  (h.of_pending pending).of_next_eq (next_running_succ hstep)

/-- A start is followed by the rest. -/
theorem Delivers.of_start (hstart : Session.start.run s = (.ok pending, s₁))
    (h : Delivers (.running n [] n) s₁ cs ss fault s') :
    Delivers (.ready n) s (pending ++ cs) ((pending.map fun _ => s₁) ++ ss) fault s' :=
  (h.of_pending pending).of_next_eq (next_ready hstart)

/-- Groups of steps are followed by the rest, and each command of theirs is taken when its step and
those before have been run. -/
theorem Delivers.of_groups (h : Delivers (.running n [] left) s₁ cs ss fault s') :
    ∀ {i : Nat} {s : Session σ} {gs : List (List Command)},
      (Session.groups i).run s = (.ok gs, s₁) → ∃ made, made.length = gs.flatten.length ∧
        Delivers (.running n [] (left + i)) s (gs.flatten ++ cs) (made ++ ss) fault s' ∧
        ∀ j s₃, made[j]? = some s₃ → ∃ k < i, ∃ before s₂ g,
          (Session.groups k).run s = (.ok before, s₂) ∧ Session.step.run s₂ = (.ok g, s₃) ∧
          before.flatten.length ≤ j ∧ j < before.flatten.length + g.length
  | 0, s, gs, hgroups => by
    cases hgroups
    exact ⟨[], rfl, h, nofun⟩
  | i + 1, s, gs, hgroups => by
    obtain ⟨g, s₀, hstep, hgroups⟩ := Session.run_bind_eq_ok hgroups
    obtain ⟨rest, s₃, hrest, hgroups⟩ := Session.run_bind_eq_ok hgroups
    cases hgroups
    obtain ⟨made, hlength, hdelivers, hmade⟩ := h.of_groups hrest
    refine ⟨(g.map fun _ => s₀) ++ made, ?_, ?_, fun j s₃ hj => ?_⟩
    · simp [hlength]
    · rw [List.flatten_cons, List.append_assoc, List.append_assoc]
      exact hdelivers.of_step hstep
    · rw [List.getElem?_append, List.length_map] at hj
      split at hj
      case isTrue hlt =>
        obtain ⟨c, -, rfl⟩ := List.mem_map.1 (List.mem_of_getElem? hj)
        exact ⟨0, Nat.succ_pos i, [], s, g, rfl, hstep, Nat.zero_le j, by simpa using hlt⟩
      case isFalse hge =>
        obtain ⟨k, hk, before, s₂, g', hbefore, hstep', hle, hlt⟩ := hmade _ _ hj
        refine ⟨k + 1, Nat.succ_lt_succ hk, g :: before, s₂, g',
          Session.run_groups_succ hstep hbefore, hstep', ?_, ?_⟩ <;>
        · rw [List.flatten_cons, List.length_append]
          omega

end Stream

namespace Session

open UndoScript.Stream

variable {σ : Type} [Source σ] {s s' : Session σ} {made : List Command} {fault : Option Fault}
  {n : Nat} {value : Literal}

/-! ### No further than the last command -/

/-- The session has been run just as far as a script of `n` steps needs for the command after `j`
others. -/
inductive HasRunFor (n : Nat) (s : Session σ) (j : Nat) : Session σ → Prop
  /-- A command of the opening needs no step. -/
  | opening {opening : List Command} {s₁ : Session σ} : start.run s = (.ok opening, s₁) →
    j < opening.length → HasRunFor n s j s₁
  /-- A command of a step needs that step and those before it. -/
  | step {i : Nat} {opening g : List Command} {gs : List (List Command)} {s₁ s₂ s₃ : Session σ} :
    i < n → start.run s = (.ok opening, s₁) → (groups i).run s₁ = (.ok gs, s₂) →
    step.run s₂ = (.ok g, s₃) → opening.length + gs.flatten.length ≤ j →
    j < opening.length + gs.flatten.length + g.length → HasRunFor n s j s₃
  /-- A command of the closing needs every step. -/
  | closing {opening : List Command} {gs : List (List Command)} {s₁ s₂ : Session σ} :
    start.run s = (.ok opening, s₁) → (groups n).run s₁ = (.ok gs, s₂) →
    opening.length + gs.flatten.length ≤ j → HasRunFor n s j s₂

/-- Steps that ran deliver what they made when it is needed, and then the rest. -/
theorem exists_delivers_of_groups {i left : Nat} {opening cs : List Command}
    {gs : List (List Command)} {ss : List (Session σ)} {s₁ s₂ : Session σ}
    (hstart : start.run s = (.ok opening, s₁)) (hgroups : (groups i).run s₁ = (.ok gs, s₂))
    (hi : left + i = n) (h : Delivers (.running n [] left) s₂ cs ss fault s')
    (hss : ∀ j s₃, ss[j]? = some s₃ →
      HasRunFor n s (opening.length + gs.flatten.length + j) s₃) :
    ∃ ss', Delivers (.ready n) s (opening ++ (gs.flatten ++ cs)) ss' fault s' ∧
      ∀ j s₃, ss'[j]? = some s₃ → HasRunFor n s j s₃ := by
  obtain ⟨made, hlength, hdelivers, hmade⟩ := h.of_groups hgroups
  rw [hi] at hdelivers
  refine ⟨_, hdelivers.of_start hstart, fun j s₃ hj => ?_⟩
  rw [List.getElem?_append, List.length_map] at hj
  split at hj
  case isTrue hlt =>
    obtain ⟨c, -, rfl⟩ := List.mem_map.1 (List.mem_of_getElem? hj)
    exact .opening hstart hlt
  case isFalse hge =>
    rw [List.getElem?_append] at hj
    split at hj
    case isTrue hlt =>
      obtain ⟨k, hk, before, s₄, g, hbefore, hstep, hle, hlt'⟩ := hmade _ _ hj
      exact .step (by omega) hstart hbefore hstep (by omega) (by omega)
    case isFalse hge' =>
      have hrest := hss _ _ hj
      rwa [show opening.length + gs.flatten.length + (j - opening.length - made.length) = j by
        omega] at hrest

/-- **A stream delivers what the script makes,** and runs no further than each command needs. -/
theorem Makes.exists_delivers (h : Makes n s made fault s') :
    ∃ ss, Delivers (.ready n) s made ss fault s' ∧
      ∀ j s₁, ss[j]? = some s₁ → HasRunFor n s j s₁ := by
  cases h with
  | unopened hstart =>
    refine ⟨[], .failed ?_, nofun⟩
    show goOn (start.run s) _ = _
    rw [hstart]
    rfl
  | broken hi hstart hgroups hfail =>
    obtain ⟨left, hleft⟩ := Nat.exists_eq_add_of_lt hi
    obtain ⟨ss, hdelivers, hss⟩ := exists_delivers_of_groups hstart hgroups
      (by omega : (left + 1) + _ = n) (delivers_broken hfail) nofun
    rw [List.append_nil] at hdelivers
    exact ⟨ss, hdelivers, hss⟩
  | whole hstart hgroups hclosing =>
    rw [run_closing] at hclosing
    obtain ⟨hcs, rfl⟩ := Prod.mk.injEq .. ▸ hclosing
    rw [← of_summary_eq_of_start hstart hgroups]
    refine exists_delivers_of_groups hstart hgroups (Nat.zero_add n)
      (delivers_last (by rw [run_closing, hcs])) fun j s₃ hj => ?_
    obtain ⟨c, -, rfl⟩ := List.mem_map.1 (List.mem_of_getElem? hj)
    exact .closing hstart hgroups (Nat.le_add_right _ j)

/-- A script that nothing broke off ends with a closing, for which every step was needed. -/
theorem Makes.hasRunFor_last (h : Makes n s made none s') :
    ∃ j, made.length = j + 1 ∧ HasRunFor n s j s' := by
  generalize hnone : (none : Option Fault) = fault at h
  cases h with
  | unopened => cases hnone
  | broken => cases hnone
  | @whole opening closing gs s₁ s₂ _ hstart hgroups hclosing =>
    obtain ⟨ts, cs, -, -, hcs, hparts⟩ := exists_scriptParts hstart hgroups
    cases hcs.symm.trans hclosing
    have hlength : closing.length = 6 := by
      rw [← List.length_map (f := Command.phrase), hparts.closes]
      rfl
    refine ⟨opening.length + gs.flatten.length + 5, ?_, .closing hstart hgroups (by omega)⟩
    rw [List.length_append, List.length_append]
    omega

/-! ### The lazy script is the script -/

/-- **Pulls follow the script.** Whatever the document, the session and its source: a stream is
there without anything forgotten or drawn. The script makes some commands and may break off with a
failure, and what is pulled, cut as one likes, are the first of these commands; the stream has ended
once more is asked for than was made, and then it has failed like the script, with the same session.
As long as nothing has failed, the session has been run no further than the last command needs.
With numbers that can be written, the lines of these commands are the script. -/
theorem pulls_follow_script (haccepts : StepCount.Accepts value n)
    (hcontent : n = 0 ∨ s.setting.document.hasContent = true) :
    (generate value).run s = (.ok (.ready n), s) ∧
    ∃ made fault last, Makes n s made fault last ∧
      (s.setting.Short n → (script value).run s = (outcome made fault, last)) ∧
      ∀ ks, let p := (Stream.ready n).pulls ks s
        p.commands = made.take ks.sum ∧
        (p.stream = .ended ↔ made.length < ks.sum) ∧
        (made.length < ks.sum → p.faults = fault.toList ∧ p.session = last) ∧
        (ks.sum ≤ made.length → p.faults = []) ∧
        (p.faults = [] → (p.commands = [] → p.session = s) ∧
          ∀ j, p.commands.length = j + 1 → HasRunFor n s j p.session) := by
  have hvalue := Setting.stepCount_eq_ok_iff.2 ⟨haccepts, hcontent⟩
  refine ⟨by rw [run_generate, hvalue]; rfl, ?_⟩
  obtain ⟨made, fault, last, hmakes⟩ := exists_makes n s
  obtain ⟨ss, hdelivers, hss⟩ := hmakes.exists_delivers
  refine ⟨made, fault, last, hmakes, fun hshort =>
    hmakes.run_script hvalue (hmakes.renders hshort), fun ks => ?_⟩
  dsimp only
  rw [pulls_eq_pull]
  rcases Nat.lt_or_ge made.length ks.sum with hlt | hle
  · rw [hdelivers.pull_of_lt hlt, List.take_of_length_le hlt.le]
    refine ⟨rfl, iff_of_true rfl hlt, fun _ => ⟨rfl, rfl⟩, fun hle => absurd hlt hle.not_gt,
      fun hfault => ?_⟩
    cases fault with
    | some f => cases hfault
    | none =>
      obtain ⟨j, hj, hrun⟩ := hmakes.hasRunFor_last
      refine ⟨fun hnil => ?_, fun k hk => ?_⟩
      · obtain rfl : made = [] := hnil
        cases hj
      · obtain rfl : k = j := Nat.succ.inj (hk.symm.trans hj)
        exact hrun
  · obtain ⟨hcommands, hfaults, hopen, hsession⟩ := hdelivers.pull_of_le nofun hle
    refine ⟨hcommands, iff_of_false hopen hle.not_gt, fun hlt => absurd hlt hle.not_gt,
      fun _ => hfaults, fun _ => ?_⟩
    rw [hcommands]
    refine ⟨fun hnil => ?_, fun j hj => ?_⟩
    · have hzero : ks.sum = 0 := by
        have hlength := congrArg List.length hnil
        rw [List.length_take_of_le hle] at hlength
        exact hlength
      rw [hzero] at hsession ⊢
      exact (Option.some.inj hsession).symm
    · rw [List.length_take_of_le hle] at hj
      rw [hj] at hsession ⊢
      exact hss j _ hsession

/-- A session whose second step takes a line with a line feed, after five commands. -/
def spanning : Session Tape :=
  ofSetting ⟨.ofLines ["a\nb"], "a.c", .standard⟩ ⟨[0, 99, 3, 99, 2], []⟩

/-- Who asks for more than five commands of its script of two steps gets the failure of that script,
however the pulls are cut. -/
theorem pulls_follow_broken_script :
    StepCount.Accepts (.whole 2) 2 ∧ spanning.setting.document.hasContent = true ∧
      spanning.setting.Short 2 ∧ ∀ ks : List Nat, 5 < ks.sum →
        ((Stream.ready 2).pulls ks spanning).faults = [.broken (.spansLines .insertString)] ∧
        (script (.whole 2)).run spanning = (.error (.broken (.spansLines .insertString)),
          ((Stream.ready 2).pulls ks spanning).session) := by
  have hshort : spanning.setting.Short 2 :=
    .of_lt (by decide) (by decide) (by decide) (by decide)
  obtain ⟨-, made, fault, last, -, hscript, hpulls⟩ :=
    pulls_follow_script (s := spanning) (.whole 2) (.inr rfl)
  obtain ⟨hcommands, hended, hfault, -⟩ := hpulls [6]
  have hlt : made.length < 6 := hended.1 rfl
  have hlength : 5 = (made.take 6).length := congrArg List.length hcommands
  rw [List.length_take] at hlength
  obtain ⟨hfaults, -⟩ := hfault hlt
  obtain rfl : fault = some (.broken (.spansLines .insertString)) := by
    cases fault with
    | none => cases hfaults
    | some f => exact congrArg some (List.cons.inj hfaults).1.symm
  refine ⟨.whole 2, rfl, hshort, fun ks hks => ?_⟩
  obtain ⟨-, -, hbeyond, -⟩ := hpulls ks
  obtain ⟨hfaults, hsession⟩ := hbeyond (by omega)
  rw [hsession]
  exact ⟨hfaults, hscript hshort⟩

end Session
end UndoScript
