import Unarddeg.Kernel.Vfs.Devices

/-!
# The contract of a read or write function

A `VNodeRWFunction` is called through a pointer, with any `Size` and `Elements`. The contract says
that the call returns the number of whole elements that it transferred, and that it only polls for
ever when the characters that arrive do not fill the request. The arithmetic below says when a
count that passes through `int` is that number.
-/

namespace Unarddeg

/-- The whole elements among the bytes that were moved; all of them after a complete transfer. -/
def wholeElements (size elements moved : Nat) : Nat :=
  if moved = size * elements then elements else moved / size

section Contract

variable {width : Nat}

/-- The contract of a call. `short` says that too few characters arrive for it. -/
def KeepsContract (size elements : BitVec width) (short : Prop) : Except Stop Transfer → Prop
  | .ok transfer =>
    transfer.result.toInt = wholeElements size.toNat elements.toNat transfer.moved
  | .error .hang => short
  | .error _ => False

/-- `Elements`, returned as an `int`, is the number of whole elements among `moved` bytes. After a
short transfer that is so only if `Elements` exceeds the number by a multiple of `2 ^ 32`. -/
def ElementsCounted (size elements moved : Nat) : Prop :=
  if moved = size * elements then elements < 2 ^ 31
  else moved / size < 2 ^ 31 ∧ elements % 2 ^ 32 = moved / size

/-- The number of bytes, returned as an `int`, is the number of whole elements among them. -/
def BytesCounted (size elements moved : Nat) : Prop :=
  if moved = size * elements then elements < 2 ^ 31 ∧ size * elements % 2 ^ 32 = elements
  else moved / size < 2 ^ 31 ∧ moved % 2 ^ 32 = moved / size

/-- Below `2 ^ 31` bytes, the number of bytes is the number of elements exactly for elements of one
byte and for no elements. -/
theorem bytesCounted_small {size elements : Nat} (small : size * elements < 2 ^ 31) :
    BytesCounted size elements (size * elements) ↔ size = 1 ∨ elements = 0 := by
  unfold BytesCounted
  rw [if_pos rfl, Nat.mod_eq_of_lt (by omega)]
  constructor
  · intro counted
    by_cases none : elements = 0
    · exact .inr none
    · exact .inl (Nat.eq_of_mul_eq_mul_right (Nat.pos_of_ne_zero none) (by omega))
  · intro either
    cases either with
    | inl one => subst one; omega
    | inr none => subst none; omega

/-- A count of less than `2 ^ 31` passes through `int`. -/
theorem asInt_eq_iff {value : BitVec width} {count : Nat} :
    (asInt value).toInt = count ↔ count < 2 ^ 31 ∧ value.toNat % 2 ^ 32 = count := by
  have below : value.toNat % 2 ^ 32 < 2 ^ 32 := Nat.mod_lt _ (by decide)
  unfold asInt
  rw [BitVec.toInt_eq_toNat_cond, BitVec.toNat_setWidth]
  split <;> omega

/-- When `Elements` is the right result. -/
theorem elements_iff {size elements : BitVec width} {moved : Nat} :
    (asInt elements).toInt = wholeElements size.toNat elements.toNat moved ↔
      ElementsCounted size.toNat elements.toNat moved := by
  rw [asInt_eq_iff]
  unfold wholeElements ElementsCounted
  split <;> omega

/-- When the number of bytes is the right result. -/
theorem bytes_iff {size elements bytes : BitVec width} :
    (asInt bytes).toInt = wholeElements size.toNat elements.toNat bytes.toNat ↔
      BytesCounted size.toNat elements.toNat bytes.toNat := by
  rw [asInt_eq_iff]
  unfold wholeElements BytesCounted
  split
  · rename_i complete
    rw [complete]
  · rfl

/-- An incomplete or complete transfer of at most the request counts its whole elements. -/
theorem wholeElements_of_le {size elements moved : Nat} (nonzero : size ≠ 0) :
    wholeElements size elements moved = moved / size := by
  unfold wholeElements
  split
  · rename_i complete
    rw [complete, Nat.mul_div_cancel_left _ (Nat.pos_of_ne_zero nonzero)]
  · rfl

/-- When the division by `Size` is the right result. -/
theorem quotient_iff {size elements i : BitVec width} (nonzero : size ≠ 0) :
    (asInt (i / size)).toInt = wholeElements size.toNat elements.toNat i.toNat ↔
      i.toNat / size.toNat < 2 ^ 31 := by
  have positive : size.toNat ≠ 0 := fun zero => nonzero (BitVec.eq_of_toNat_eq zero)
  rw [asInt_eq_iff, wholeElements_of_le positive, BitVec.toNat_udiv]
  generalize i.toNat / size.toNat = count
  omega

end Contract

section Terminals

variable {width : Nat} {terminal : Terminal width} {bytes : BitVec width}
  {input : List (BitVec 8)} {arrived : BitVec 8} {line : Line width}

/-- A position below a bound moves forwards by one. -/
theorem toNat_forwards {i : BitVec width} (more : i < bytes) : (i + 1).toNat = i.toNat + 1 := by
  have below := bytes.isLt
  rw [BitVec.lt_def] at more
  have one : (1 : BitVec width).toNat = 1 := Nat.mod_eq_of_lt (show 1 < 2 ^ width by omega)
  rw [BitVec.toNat_add_of_lt (by omega), one]

/-- Two back and one forwards is one back, also from one. -/
theorem toNat_backwards {i : BitVec width} (positive : 0 < i) (more : i < bytes) :
    (i - 2 + 1).toNat + 1 = i.toNat := by
  have same : i - 2 + 1 = i - 1 := by grind
  have below := bytes.isLt
  have first : 0 < i.toNat := positive
  rw [BitVec.lt_def] at more
  have one : (1 : BitVec width).toNat = 1 := Nat.mod_eq_of_lt (show 1 < 2 ^ width by omega)
  have inside : 1 ≤ i := by
    rw [BitVec.le_def, one]
    exact first
  rw [same, BitVec.toNat_sub_of_le inside, one]
  omega

/-- The echo of the terminal returns whenever it is called. -/
def Terminal.Echoes (terminal : Terminal width) : Prop :=
  ∀ chr, ∃ puts, terminal.puts chr = .ok puts

/-- The serial terminal always echoes. -/
theorem serialTerminal_echoes (flags : BitVec width) : (serialTerminal flags).Echoes := by
  intro chr
  unfold Terminal.puts serialTerminal
  split
  · exact ⟨_, rfl⟩
  · exact ⟨_, rfl⟩

/-- A full buffer ends the loop. -/
theorem readChars_full (full : ¬ line.i < bytes) :
    readChars terminal bytes input line = .ok line := by
  cases input <;> simp only [readChars, full, if_false]

/-- A character moves the position by one, forwards or for a backspace backwards, or it is the line
feed that ends the line. -/
theorem readChars_cons (echoes : bytes ≠ 0 → terminal.Echoes) (more : line.i < bytes) :
    (∃ next : Line width, (next.i.toNat = line.i.toNat + 1 ∨
        arrived = 8 ∧ next.i.toNat + 1 = line.i.toNat) ∧
      readChars terminal bytes (arrived :: input) line = readChars terminal bytes input next) ∨
    ∃ last, translated terminal.flags arrived = 10 ∧ last.i = line.i ∧
      readChars terminal bytes (arrived :: input) line = .ok last := by
  have nonempty : bytes ≠ 0 := by
    intro zero
    rw [zero] at more
    exact absurd more (by simp)
  obtain ⟨puts, echoed⟩ := echoes nonempty (translated terminal.flags arrived)
  simp only [readChars, if_pos more, echoed, bind, Except.bind]
  by_cases back : ¬ isSet terminal.flags ttyRaw ∧ translated terminal.flags arrived = 8 ∧ line.i > 0
  · rw [if_pos back]
    have arrived_eq : arrived = 8 := by
      have kept := back.2.1
      unfold translated at kept
      split at kept
      · cases kept
      · exact kept
    exact .inl ⟨_, .inr ⟨arrived_eq, toNat_backwards back.2.2 more⟩, rfl⟩
  · rw [if_neg back]
    by_cases ends : translated terminal.flags arrived = 10 ∧ isSet terminal.flags ttyCooked
    · rw [if_pos ends]
      refine .inr ⟨_, ends.1, ?_, rfl⟩
      cases terminal.storesNewline <;> rfl
    · rw [if_neg ends]
      exact .inl ⟨_, .inl (toNat_forwards more), rfl⟩

/-- The loop ends inside the buffer; it only polls for ever when the characters, each backspace
among them counted against two others, do not fill the buffer. -/
theorem readChars_spec (echoes : bytes ≠ 0 → terminal.Echoes) (inside : line.i ≤ bytes) :
    match readChars terminal bytes input line with
    | .ok last => last.i ≤ bytes
    | .error reason =>
      reason = .hang ∧ input.length + line.i.toNat < bytes.toNat + 2 * input.count 8 := by
  induction input generalizing line with
  | nil =>
    by_cases more : line.i < bytes
    · have below : line.i.toNat < bytes.toNat := more
      simp only [readChars, if_pos more, List.length_nil, List.count_nil]
      exact ⟨trivial, by omega⟩
    · simpa only [readChars, if_neg more] using inside
  | cons arrived input ih =>
    by_cases more : line.i < bytes
    · have below : line.i.toNat < bytes.toNat := more
      rcases @readChars_cons _ terminal bytes input arrived line echoes more with
        ⟨next, moved, same⟩ | ⟨last, _, stays, same⟩
      · have inside : next.i ≤ bytes := by
          show next.i.toNat ≤ bytes.toNat
          omega
        have rest := ih inside
        rw [same]
        cases ended : readChars terminal bytes input next with
        | ok last => simpa only [ended] using rest
        | error reason =>
          obtain ⟨hangs, short⟩ : reason = .hang ∧ _ := by simpa only [ended] using rest
          refine ⟨hangs, ?_⟩
          rw [List.length_cons, List.count_cons]
          rcases moved with forwards | ⟨rfl, backwards⟩
          · omega
          · rw [if_pos (beq_self_eq_true _)]
            omega
      · rw [same]
        exact stays ▸ inside
    · rw [readChars_full more]
      exact inside

/-- Characters without a special meaning fill the buffer. -/
theorem readChars_plain (echoes : bytes ≠ 0 → terminal.Echoes) {count : Nat}
    (fills : line.i.toNat + count = bytes.toNat) :
    ∃ last, readChars terminal bytes (List.replicate count 97) line = .ok last ∧
      last.i = bytes := by
  induction count generalizing line with
  | zero =>
    have full : line.i = bytes := BitVec.eq_of_toNat_eq fills
    refine ⟨line, readChars_full ?_, full⟩
    rw [full]
    exact BitVec.lt_irrefl _
  | succ count ih =>
    have more : line.i < bytes := by
      show line.i.toNat < bytes.toNat
      omega
    rw [List.replicate_succ]
    rcases @readChars_cons _ terminal bytes (List.replicate count 97) 97 line echoes more with
      ⟨next, forwards | ⟨back, _⟩, same⟩ | ⟨_, feed, _⟩
    · rw [same]
      exact ih (by omega)
    · cases back
    · unfold translated at feed
      rw [if_neg fun both => absurd both.1 (by decide)] at feed
      cases feed

/-- An echo that does not return stops the read at its first character. -/
theorem readChars_stops {reason : Stop} (more : line.i < bytes)
    (stops : terminal.puts (translated terminal.flags arrived) = .error reason) :
    readChars terminal bytes (arrived :: input) line = .error reason := by
  simp only [readChars, if_pos more, stops, bind, Except.bind]

variable {size elements : BitVec width}

/-- Too few characters for a request: each backspace also takes another one away. -/
def TooShort (size elements : BitVec width) (input : List (BitVec 8)) : Prop :=
  input.length < (size * elements).toNat + 2 * input.count 8

/-- A function that reads a line into a buffer. -/
def lineCall (terminal : Terminal width) (size elements : BitVec width)
    (input : List (BitVec 8)) (dest : Nat → BitVec 8) : Except Stop Transfer :=
  (readLine terminal input (some dest) size elements).map Prod.fst

/-- A read of a line ends with the division of its last position. -/
theorem lineCall_eq {dest : Nat → BitVec 8} {last : Line width}
    (ended : readChars terminal (size * elements) input ⟨0, dest, []⟩ = .ok last) :
    lineCall terminal size elements input dest = perSize last.i size := by
  simp only [lineCall, readLine, checked, ended, bind, Except.bind, pure, Except.pure]
  cases perSize last.i size <;> rfl

/-- A terminal whose echo returns, where it is called, keeps the contract, whatever arrives, exactly
for elements with a size of which an `int` can count those in the request. -/
theorem lineCall_iff (echoes : size * elements ≠ 0 → terminal.Echoes) :
    (∀ dest input, KeepsContract size elements (TooShort size elements input)
      (lineCall terminal size elements input dest)) ↔
      size ≠ 0 ∧ (size * elements).toNat / size.toNat < 2 ^ 31 := by
  constructor
  · intro keeps
    obtain ⟨last, ended, full⟩ := @readChars_plain _ terminal (size * elements) ⟨0, fun _ => 0, []⟩
      echoes (size * elements).toNat (by simp)
    have kept := keeps (fun _ => 0) (List.replicate (size * elements).toNat 97)
    rw [lineCall_eq ended, perSize] at kept
    by_cases zero : size = 0
    · rw [if_pos zero] at kept
      cases kept
    · rw [if_neg zero, full] at kept
      exact ⟨zero, (quotient_iff zero).mp kept⟩
  · intro ⟨nonzero, counted⟩ dest input
    have spec := @readChars_spec _ terminal (size * elements) input ⟨0, dest, []⟩ echoes
      (show (0 : BitVec width).toNat ≤ (size * elements).toNat by simp)
    cases ended : readChars terminal (size * elements) input ⟨0, dest, []⟩ with
    | ok last =>
      rw [ended] at spec
      rw [lineCall_eq ended, perSize, if_neg nonzero]
      have inside : last.i.toNat ≤ (size * elements).toNat := spec
      have fewer := Nat.div_le_div_right (c := size.toNat) inside
      exact (quotient_iff nonzero).mpr (Nat.lt_of_le_of_lt fewer counted)
    | error reason =>
      obtain ⟨rfl, short⟩ : reason = .hang ∧ _ := by simpa only [ended] using spec
      have hangs : lineCall terminal size elements input dest = .error .hang := by
        simp only [lineCall, readLine, checked, ended, bind, Except.bind, Except.map]
      rw [hangs]
      simpa [KeepsContract, TooShort] using short

end Terminals

end Unarddeg
