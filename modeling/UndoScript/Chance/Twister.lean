/-
# A seeded source

The Mersenne Twister with 624 words of 32 bits. It is seeded with a key of
words through the reference initialisation by an array. A number below `n` is
drawn as a number with as many bits as `n` has, until one is below `n`.

Key definitions: `Twister`, `Twister.ofKey`, `Twister.word`, `Twister.bits`,
`Twister.below`, `Twister.ofSeed`.
-/
import UndoScript.Chance.Sampler

namespace UndoScript

/-- The words of the state and the position of the next one to be used; at 624 all are used. -/
structure Twister where
  words : Vector UInt32 624
  position : Nat

namespace Twister

/-! ### Seeding -/

/-- The words grown from one, each from its neighbour before it. -/
def grown (first : UInt32) : Vector UInt32 624 :=
  Fin.foldl 623 (fun (words : Vector UInt32 624) (i : Fin 623) =>
    let before : UInt32 := words[i.val]
    let next : UInt32 := (before ^^^ (before >>> 30)) * 1812433253 + UInt32.ofNat (i.val + 1)
    words.set (i.val + 1) next)
    (Vector.replicate 624 first)

/-- The position after `i`, where the first follows the last and takes its word. -/
def stepAround (words : Vector UInt32 624) (i : Fin 624) : Vector UInt32 624 × Fin 624 :=
  if h : i.val + 1 < 624 then (words, ⟨i.val + 1, h⟩) else (words.set 0 words[623], 1)

/-- The word before position `i`, around the end. -/
def wordBefore (words : Vector UInt32 624) (i : Fin 624) : UInt32 :=
  let before : UInt32 := words[i.val - 1]
  before ^^^ (before >>> 30)

/-- Stirs the key into the words, `rounds` times one word. -/
def stirKey (key : Array UInt32) : Nat → Nat → Fin 624 → Vector UInt32 624 →
    Vector UInt32 624 × Fin 624
  | 0, _, i, words => (words, i)
  | rounds + 1, j, i, words =>
    let word := (words[i] ^^^ (wordBefore words i * 1664525)) + key.getD j 0 + UInt32.ofNat j
    let (words, i) := stepAround (words.set i word) i
    stirKey key rounds (if j + 1 < key.size then j + 1 else 0) i words

/-- Stirs the words among themselves, `rounds` times one word. -/
def stirWords : Nat → Fin 624 → Vector UInt32 624 → Vector UInt32 624
  | 0, _, words => words
  | rounds + 1, i, words =>
    let word := (words[i] ^^^ (wordBefore words i * 1566083941)) - UInt32.ofNat i.val
    let (words, i) := stepAround (words.set i word) i
    stirWords rounds i words

/-- The state that a key of words seeds. -/
def ofKey (key : Array UInt32) : Twister :=
  let (words, i) := stirKey key (max 624 key.size) 0 1 (grown 19650218)
  ⟨(stirWords 623 i words).set 0 0x80000000, 624⟩

/-- How many words there are. -/
def wordCount : Nat := 0x100000000

/-- The 32-bit words of a number, the least significant first. -/
def wordsOf (n : Nat) : List UInt32 :=
  if _h : n < wordCount then [UInt32.ofNat n] else UInt32.ofNat n :: wordsOf (n / wordCount)
termination_by n
decreasing_by
  have hcount : 1 < wordCount := by decide
  exact Nat.div_lt_self (by omega) hcount

/-- The state that a seed leads to; its sign does not count. -/
def ofSeed (seed : Int) : Twister := ofKey (wordsOf seed.natAbs).toArray

/-! ### Drawing -/

/-- All words replaced by new ones, each from itself, its neighbour and the word 397 places on. -/
def turned (words : Vector UInt32 624) : Vector UInt32 624 :=
  Fin.foldl 624 (fun (words : Vector UInt32 624) (i : Fin 624) =>
    let mixed := (words[i] &&& 0x80000000) ||| (words[i + 1] &&& 0x7FFFFFFF)
    let flip : UInt32 := if mixed &&& 1 = 0 then 0 else 0x9908B0DF
    words.set i (words[i + 397] ^^^ (mixed >>> 1) ^^^ flip)) words

/-- The output that a word of the state gives. -/
def tempered (y : UInt32) : UInt32 :=
  let y := y ^^^ (y >>> 11)
  let y := y ^^^ ((y <<< 7) &&& 0x9D2C5680)
  let y := y ^^^ ((y <<< 15) &&& 0xEFC60000)
  y ^^^ (y >>> 18)

/-- The next 32 random bits. -/
def word (t : Twister) : UInt32 × Twister :=
  if h : t.position < 624 then (tempered t.words[t.position], { t with position := t.position + 1 })
  else
    let words := turned t.words
    (tempered words[0], ⟨words, 1⟩)

/-- A number of `k` random bits: whole words from the least significant up, then the rest. -/
def bits (k : Nat) (t : Twister) : Nat × Twister :=
  if _h : k ≤ 32 then
    let (w, t) := t.word
    (w.toNat >>> (32 - k), t)
  else
    let (w, t) := t.word
    let (rest, t) := bits (k - 32) t
    (w.toNat + rest * wordCount, t)
termination_by k

/-- Draws of as many bits as `n` has, until one is below `n`; the remainder after `tries` of them. -/
def belowWithin (n : Nat) (positive : 0 < n) : Nat → Twister → Fin n × Twister
  | 0, t =>
    let (r, t) := t.bits (n.log2 + 1)
    (⟨r % n, Nat.mod_lt r positive⟩, t)
  | tries + 1, t =>
    let (r, t) := t.bits (n.log2 + 1)
    if h : r < n then (⟨r, h⟩, t) else belowWithin n positive tries t

/-- A number below `n`. A try succeeds with a chance of one half or more, so ten thousand of them
do not all fail. -/
def below (n : Nat) (positive : 0 < n) (t : Twister) : Fin n × Twister :=
  belowWithin n positive 10000 t

instance : Source Twister := ⟨below⟩

end Twister
end UndoScript
