/-
# What a stream gives out

A stream that nothing else disturbs gives out the commands of the opening, of
the steps and of the closing, and ends; it does so lazily, but what is given
out is what the parts run one after the other come to. Once it is open, a
stream gives out all its commands, even if other streams of its session are
taken from in between; after the last only its summary can fail.

Key definitions: `Stream.Runs`.
Key theorems: `Stream.runs_ready`, `Stream.Runs.take`,
`Stream.exists_next_running`.
-/
import UndoScript.Session.Stream
import UndoScript.Proofs.StepCount
import UndoScript.Proofs.Session.Run

namespace UndoScript
namespace Stream

variable {σ : Type} [Source σ]

/-- Taken from until it ends, the stream gives out these commands, ends with this failure or none,
and leaves the session so. -/
inductive Runs : Stream → Session σ → List Command → Option Fault → Session σ → Prop
  | ended {stream : Stream} {s s' : Session σ} : stream.next s = ((.ok none, .ended), s') →
    Runs stream s [] none s'
  | failed {stream : Stream} {s s' : Session σ} {f : Fault} :
    stream.next s = ((.error f, .ended), s') → Runs stream s [] (some f) s'
  | taken {stream after : Stream} {s s₁ s' : Session σ} {c : Command} {cs : List Command}
    {fault : Option Fault} : stream.next s = ((.ok (some c), after), s₁) →
    Runs after s₁ cs fault s' → Runs stream s (c :: cs) fault s'

variable {stream stream' : Stream} {s s₁ s₂ s₃ s' : Session σ} {cs pending : List Command}
  {fault : Option Fault} {left n : Nat}

/-- A stream that goes on as another does gives out the same. -/
theorem Runs.of_next_eq (hnext : stream.next s = stream'.next s₁)
    (h : Runs stream' s₁ cs fault s') : Runs stream s cs fault s' := by
  cases h with
  | ended hend => exact .ended (hnext.trans hend)
  | failed hfail => exact .failed (hnext.trans hfail)
  | taken htaken hrest => exact .taken (hnext.trans htaken) hrest

/-! ### What comes next -/

/-- After the last closing command the script is summed up. -/
theorem next_closing_nil (s : Session σ) :
    (closing n []).next s = (((s.summary n).map fun _ => none, .ended), s) := rfl

/-- Commands that are made are taken without any work. -/
theorem next_running_cons {c : Command} :
    (running n (c :: pending) left).next s = ((.ok (some c), .running n pending left), s) := by
  cases left <;> rfl

/-- Steps that are used up are followed by the closing commands. -/
theorem next_running_zero (hclosing : Session.closing.run s = (.ok cs, s')) :
    (running n [] 0).next s = (closing n cs).next s' := by
  show goOn (Session.closing.run s) _ = _
  rw [hclosing]
  rfl

/-- A step is followed by what comes after it. -/
theorem next_running_succ (hstep : Session.step.run s = (.ok pending, s₁)) :
    (running n [] (left + 1)).next s = (running n pending left).next s₁ := by
  show goOn (Session.step.run s) _ = _
  rw [hstep]
  rfl

/-- The opening is followed by the steps. -/
theorem next_ready (hstart : Session.start.run s = (.ok pending, s₁)) :
    (ready n).next s = (running n pending n).next s₁ := by
  show goOn (Session.start.run s) _ = _
  rw [hstart]
  rfl

/-! ### From the end to the beginning -/

/-- The closing commands are given out, and then there is a summary or none. -/
theorem runs_closing (s : Session σ) : ∀ cs : List Command,
    Runs (.closing n cs) s cs (Fault.of (s.summary n)) s
  | [] => by
    have hnext := next_closing_nil (n := n) s
    cases hsummary : s.summary n <;> rw [hsummary] at hnext
    case ok => exact .ended hnext
    case error => exact .failed hnext
  | _ :: cs => .taken rfl (runs_closing s cs)

/-- Commands that are made are given out first. -/
theorem Runs.of_pending (h : Runs (.running n [] left) s cs fault s') :
    ∀ pending : List Command, Runs (.running n pending left) s (pending ++ cs) fault s'
  | [] => h
  | _ :: pending => .taken next_running_cons (h.of_pending pending)

/-- Groups of steps are followed by the closing commands. -/
theorem runs_groups : ∀ {left : Nat} {s : Session σ} {gs : List (List Command)},
    (Session.groups left).run s = (.ok gs, s₁) → Session.closing.run s₁ = (.ok cs, s') →
    Runs (.running n [] left) s (gs.flatten ++ cs) (Fault.of (s'.summary n)) s'
  | 0, s, gs, hgroups, hclosing => by
    cases hgroups
    exact (runs_closing s' cs).of_next_eq (next_running_zero hclosing)
  | left + 1, s, gs, hgroups, hclosing => by
    obtain ⟨g, s₂, hstep, hgroups⟩ := Session.run_bind_eq_ok hgroups
    obtain ⟨rest, s₃, hrest, hgroups⟩ := Session.run_bind_eq_ok hgroups
    cases hgroups
    rw [List.flatten_cons, List.append_assoc]
    exact ((runs_groups hrest hclosing).of_pending g).of_next_eq (next_running_succ hstep)

/-- **A stream gives out what the parts of the script come to.** -/
theorem runs_ready {opening closing : List Command} {gs : List (List Command)}
    (hstart : Session.start.run s = (.ok opening, s₁))
    (hgroups : (Session.groups n).run s₁ = (.ok gs, s₂))
    (hclosing : Session.closing.run s₂ = (.ok closing, s₃)) :
    Runs (.ready n) s (opening ++ (gs.flatten ++ closing)) (Fault.of (s₃.summary n)) s₃ :=
  ((runs_groups hgroups hclosing).of_pending opening).of_next_eq (next_ready hstart)

/-! ### Taking from a stream -/

/-- However many commands are taken, they are the first ones; whoever asks for more than there are
gets them all, or the failure that the stream ends with. -/
theorem Runs.take (h : Runs stream s cs fault s') (k : Nat) :
    (k ≤ cs.length → (stream.take k s).1.1 = .ok (cs.take k)) ∧
      (cs.length < k → stream.take k s = ((Fault.unless fault cs, .ended), s')) := by
  induction h generalizing k with
  | @ended stream s s' hnext | @failed stream s s' f hnext =>
    cases k with
    | zero => exact ⟨fun _ => rfl, fun hlt => absurd hlt (Nat.not_lt_zero _)⟩
    | succ k =>
      refine ⟨fun hle => absurd hle (Nat.not_succ_le_zero k), fun _ => ?_⟩
      unfold Stream.take
      rw [hnext]
      rfl
  | @taken stream after s s₁ s' c cs fault htaken _ ih =>
    cases k with
    | zero => exact ⟨fun _ => rfl, fun hlt => absurd hlt (Nat.not_lt_zero _)⟩
    | succ k =>
      obtain ⟨hfirst, hlast⟩ := ih k
      have htake : stream.take (k + 1) s =
          (((after.take k s₁).1.1.map (c :: ·), (after.take k s₁).1.2), (after.take k s₁).2) := by
        rw [Stream.take.eq_def]
        dsimp only
        rw [htaken]
      refine ⟨fun hle => ?_, fun hlt => ?_⟩
      · rw [htake, hfirst (Nat.le_of_succ_le_succ hle)]
        rfl
      · rw [htake, hlast (Nat.lt_of_succ_lt_succ hlt)]
        cases fault <;> rfl

/-! ### A stream that is open -/

/-- Whatever else has happened to the session, there is a next command until the closing has been
given out. -/
theorem exists_next_running (hd : s.setting.document.Unbroken)
    (ht : Glyph.newline ∉ s.setting.target) (hm : 0 ≤ s.memory.mutations)
    (hleft : left = 0 ∨ s.setting.document.hasContent = true) :
    ∃ c after, ((running n pending left).next s).1 = (.ok (some c), after) := by
  induction left generalizing pending s with
  | zero =>
    cases pending with
    | cons c cs => exact ⟨c, _, rfl⟩
    | nil =>
      obtain ⟨cs, hclosing, hphrases⟩ := Setting.exists_closing ht
      rw [next_running_zero (by rw [Session.run_closing, hclosing])]
      cases cs with
      | nil => cases hphrases
      | cons c cs => exact ⟨c, _, rfl⟩
  | succ left ih =>
    cases pending with
    | cons c cs => exact ⟨c, _, rfl⟩
    | nil =>
      have hcontent := hleft.resolve_left (Nat.succ_ne_zero left)
      obtain ⟨cs, s₁, hstep⟩ := Session.exists_run_step hm hd hcontent
      obtain ⟨t, hyields, -, hsetting, hmemory⟩ := Session.yields_of_run_step hstep
      have hcount := Setting.mutations_of_yields_step hm hyields
      rw [next_running_succ hstep]
      apply ih
      · rw [hsetting]; exact hd
      · rw [hsetting]; exact ht
      · rw [hmemory]; omega
      · rw [hsetting]; exact .inr hcontent

/-- After the closing only the summary can fail, for a number that is too large. -/
theorem next_closing_eq_error_iff {f : Fault} : ((closing n pending).next s).1.1 = .error f ↔
    pending = [] ∧ ¬ s.HasSummary n ∧ f = .numberTooLarge := by
  cases pending with
  | cons c cs => exact iff_of_false (fun h => by cases h) (by simp)
  | nil =>
    rw [next_closing_nil, Session.summary]
    by_cases h : s.HasSummary n <;> simp [h, Except.map, eq_comm]

end Stream
end UndoScript
