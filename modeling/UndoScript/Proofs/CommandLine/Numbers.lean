/-
# Numbers on the command line can be written

A number is read from so many digits at most that it can be written again. So
every number that a command line gives an option can be, however the options
stand in it, and with it the value of TURBO in a request for a script.

Key definitions: `Ensures`, `Parsed.NumbersFit`.
Key theorems: `natAbs_lt_of_readInteger?`, `Arguments.ensures_parse`,
`Generate.writable_turbo`.
-/
import UndoScript.CommandLine.Generate
import UndoScript.Proofs.Text.Decimal

namespace UndoScript

/-! ### Numbers of any script -/

theorem Digit.lt_of_value? {g : Glyph} {d : Nat} (h : value? g = some d) : d < 10 := by
  cases g with
  | byte low => cases h
  | char c =>
    obtain ⟨first, hfirst, rfl⟩ := Option.map_eq_some_iff.1 h
    have hrange := List.find?_some hfirst
    simp only [Bool.and_eq_true, decide_eq_true_eq] at hrange
    omega

theorem IntegerText.lt_of_digits? : ∀ {t : Text} {ds : List Nat}, digits? t = some ds →
    ∀ d ∈ ds, d < 10
  | [], _, h => nomatch h
  | [g], ds, h => by
    obtain ⟨d, hd, rfl⟩ := Option.map_eq_some_iff.1 h
    simpa using Digit.lt_of_value? hd
  | g :: g' :: rest, ds, h => by
    unfold digits? at h
    cases hg : Digit.value? g with
    | none =>
      rw [hg] at h
      cases h
    | some d =>
      rw [hg] at h
      have hcons {es : List Nat} (hes : ∀ e ∈ es, e < 10) : ∀ e ∈ d :: es, e < 10 := by
        simpa using ⟨Digit.lt_of_value? hg, hes⟩
      dsimp only at h
      split at h
      · obtain ⟨es, hes, rfl⟩ := Option.map_eq_some_iff.1 h
        exact hcons (lt_of_digits? hes)
      · obtain ⟨es, hes, rfl⟩ := Option.map_eq_some_iff.1 h
        exact hcons (lt_of_digits? hes)

theorem IntegerText.lt_of_natural? {t : Text} {n : Nat} (h : natural? t = some n) :
    n < 10 ^ Numeral.limit := by
  unfold natural? at h
  split at h
  · cases h
  · next ds hds =>
    split at h
    · next hlength =>
      obtain rfl := Option.some.inj h
      exact Numeral.foldl_digits_lt_limit (lt_of_digits? hds) hlength
    · cases h

/-- **A number that was read can be written.** -/
theorem writable_of_readInteger? {t : Text} {n : Int} (h : readInteger? t = some n) :
    Numeral.Writable n := by
  have hread {sign : Int → Int} {rest : Text} (hsign : ∀ k, (sign k).natAbs = k.natAbs)
      (h : (do let k ← IntegerText.natural? rest; pure (k : Int)).map sign = some n) :
      Numeral.Writable n := by
    cases hk : IntegerText.natural? rest with
    | none =>
      rw [hk] at h
      cases h
    | some k =>
      rw [hk] at h
      cases h
      rw [Numeral.writable_iff, hsign, Int.natAbs_natCast]
      exact IntegerText.lt_of_natural? hk
  unfold readInteger? at h
  split at h
  · exact hread Int.natAbs_neg h
  · exact hread (fun _ => rfl) h
  · exact hread (fun _ => rfl) h

/-! ### What a computation ensures -/

/-- If something comes of it, that is as `P` says. -/
def Ensures {ε α : Type} (x : Except ε α) (P : α → Prop) : Prop := ∀ a, x = .ok a → P a

section Ensures

variable {ε α β : Type} {x : Except ε α} {P : α → Prop} {Q : β → Prop}

theorem ensures_ok {a : α} (h : P a) : Ensures (.ok a : Except ε α) P := by
  rintro _ ⟨⟩
  exact h

theorem ensures_error {e : ε} : Ensures (.error e : Except ε α) P := nofun

theorem ensures_true : Ensures x fun _ => True := fun _ _ => trivial

theorem Ensures.bind {f : α → Except ε β} (hx : Ensures x P) (hf : ∀ a, P a → Ensures (f a) Q) :
    Ensures (x >>= f) Q := by
  intro b hb
  cases hxa : x with
  | error e =>
    rw [hxa] at hb
    cases hb
  | ok a =>
    rw [hxa] at hb
    exact hf a (hx a hxa) b hb

theorem ensures_foldlM {f : β → α → Except ε β} (hf : ∀ b a, Q b → Ensures (f b a) Q) :
    ∀ {as : List α} {b : β}, Q b → Ensures (as.foldlM f b) Q
  | [], _, hb => ensures_ok hb
  | a :: as, b, hb => by
    rw [List.foldlM_cons]
    exact (hf b a hb).bind fun _ => ensures_foldlM hf

end Ensures

/-! ### Options -/

/-- The numbers that options were given can be written. -/
def Parsed.NumbersFit (p : Parsed) : Prop :=
  ∀ o n, (o, .integer n) ∈ p.options → Numeral.Writable n

/-- The number that an option was given can be written, if the number to use otherwise can. -/
theorem Parsed.NumbersFit.writable_getD {p : Parsed} (hp : p.NumbersFit) {name : String} {n : Int}
    (hn : Numeral.Writable n) : Numeral.Writable ((p.integer? name).getD n) := by
  unfold integer?
  cases hvalue : p.value? name with
  | none => exact hn
  | some value =>
    cases value with
    | integer k =>
      obtain ⟨given, hfind, hk⟩ := Option.map_eq_some_iff.1 hvalue
      exact hp given.1 k (hk ▸ List.mem_of_find?_eq_some hfind)
    | given => exact hn
    | text t => exact hn

namespace Arguments

variable {g : Grammar} {p : Parsed} {o : OptionSpec}

/-- An option gets no number that cannot be written. -/
theorem ensures_give (hp : p.NumbersFit) (value : Option Text) :
    Ensures (give p o value) Parsed.NumbersFit := by
  have hcons {v : OptionValue} (hv : ∀ n, v = .integer n → Numeral.Writable n) :
      Parsed.NumbersFit { p with options := (o, v) :: p.options } := by
    intro o' n hmem
    rcases List.mem_cons.1 hmem with heq | hmem
    · exact hv n (congrArg Prod.snd heq).symm
    · exact hp o' n hmem
  unfold give
  split
  · exact ensures_error
  · exact ensures_ok (hcons nofun)
  · split
    · next n hn =>
      refine ensures_ok (hcons ?_)
      rintro _ ⟨⟩
      exact writable_of_readInteger? hn
    · exact ensures_error
  · exact ensures_ok (hcons nofun)

theorem ensures_takeOption (hp : p.NumbersFit) (u : Use) (items : List Item) :
    Ensures (takeOption g p o u items) fun taken => taken.1.NumbersFit := by
  unfold takeOption
  refine ensures_true.bind fun found _ => ensures_true.bind fun (value, rest) _ => ?_
  have hflags : Ensures (found.flags.foldlM (fun p o => give p o none) p) Parsed.NumbersFit :=
    ensures_foldlM (fun _ _ hp => ensures_give hp none) hp
  exact hflags.bind fun p hp => (ensures_give hp value).bind fun p hp => ensures_ok hp

/-- **Going through the arguments keeps the numbers writable.** -/
theorem ensures_walk : ∀ (rounds : Nat) {p : Parsed} (items : List Item), p.NumbersFit →
    Ensures (walk g rounds p items) Parsed.NumbersFit
  | 0, _, _, hp => ensures_ok hp
  | rounds + 1, p, items, hp => by
    unfold walk
    split
    · split
      · exact ensures_ok hp
      · exact (ensures_takeOption hp _ _).bind fun taken hp => ensures_walk rounds taken.2 hp
      · exact ensures_walk rounds _ hp
      · next item rest _ _ =>
        dsimp only
        split
        · exact ensures_walk rounds _ hp
        · exact ensures_walk rounds _ hp
    · exact ensures_ok hp

theorem ensures_parse (arguments : List Text) :
    Ensures (parse g arguments) Parsed.NumbersFit := by
  have hnone : Parsed.NumbersFit ⟨[], [], []⟩ := nofun
  unfold parse
  refine ensures_true.bind fun items _ => (ensures_walk _ items hnone).bind fun p hp => ?_
  dsimp only
  generalize (if g.required = true then g.slots.drop p.slots.length else []) = missing
  split
  · exact ensures_error
  · split
    · exact ensures_error
    · exact ensures_ok hp

end Arguments

namespace Generate

/-- **The value of TURBO in a request can be written.** -/
theorem writable_turbo {arguments : List Text} {r : Request} (h : request arguments = .ok r) :
    Numeral.Writable r.turbo := by
  unfold request at h
  cases hparse : Arguments.parse grammar arguments with
  | error stop =>
    rw [hparse] at h
    cases h
  | ok p =>
    have hp : p.NumbersFit := Arguments.ensures_parse arguments p hparse
    rw [hparse] at h
    dsimp only at h
    cases hr : Request.ofParsed? p with
    | none =>
      rw [hr] at h
      cases h
    | some r' =>
      rw [hr] at h
      cases h
      unfold Request.ofParsed? at hr
      split at hr
      · cases hr
        exact hp.writable_getD (by decide)
      · cases hr

end Generate
end UndoScript
