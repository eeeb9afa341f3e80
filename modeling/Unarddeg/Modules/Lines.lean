import Unarddeg.Modules.Keyboard

/-!
# The editing of a line

The line that `SerialReadFunction` and `ps2_keyboard_read` are to read: a backspace takes the last
pending character back. Both functions decrement their index by two for it and clear the byte there,
before the loop's own `++i`. So the byte that is cleared is the one in front of the character that
is taken back, and with one pending character it is the byte in front of the buffer.
-/

namespace Unarddeg

open Library

section Editing

variable {width : Nat}

/-- The pending characters after another one. -/
def edit (flags : BitVec width) (line : List (BitVec 8)) (chr : BitVec 8) : List (BitVec 8) :=
  if ¬ isSet flags ttyRaw ∧ chr = 8 ∧ line ≠ [] then line.dropLast else line ++ [chr]

/-- A line feed ends a line with `TTY_COOKED`. -/
def endsLine (flags : BitVec width) (chr : BitVec 8) : Prop :=
  chr = 10 ∧ isSet flags ttyCooked

instance decidableEndsLine (flags : BitVec width) (chr : BitVec 8) :
    Decidable (endsLine flags chr) :=
  inferInstanceAs (Decidable (_ ∧ _))

/-- A backspace ends no line. -/
theorem not_endsLine_back {flags : BitVec width} {chr : BitVec 8} (back : chr = 8) :
    ¬ endsLine flags chr := by
  rintro ⟨feed, _⟩
  rw [back] at feed
  cases feed

/-- A line of at most `limit` characters, if the characters that arrive end it, given what each does
to the pending ones. -/
def readTill {κ : Type} (flags : BitVec width) (limit : Nat) (next : List κ → BitVec 8 → List κ) :
    List (BitVec 8) → List κ → Option (List κ)
  | [], line => if line.length < limit then none else some line
  | arrived :: input, line =>
    if line.length < limit then
      let chr := translated flags arrived
      if endsLine flags chr then some line else readTill flags limit next input (next line chr)
    else some line

/-- The line that comes of the characters that arrive. -/
def lineOf (flags : BitVec width) (limit : Nat) (input line : List (BitVec 8)) :
    Option (List (BitVec 8)) :=
  readTill flags limit (edit flags) input line

/-- The pending characters after some that arrived. -/
def editAll (flags : BitVec width) (line input : List (BitVec 8)) : List (BitVec 8) :=
  (input.map (translated flags)).foldl (edit flags) line

/-- While a line is read, a backspace that is not passed through arrives for its only character. -/
def DeletesFirst (flags : BitVec width) (limit : Nat) (input line : List (BitVec 8)) : Prop :=
  ∃ before arrived after, input = before ++ arrived :: after ∧
    lineOf flags limit before line = none ∧ ¬ isSet flags ttyRaw ∧ translated flags arrived = 8 ∧
    (editAll flags line before).length = 1

variable {flags : BitVec width} {limit : Nat} {input line : List (BitVec 8)} {arrived : BitVec 8}

section Reading

variable {κ : Type} {next : List κ → BitVec 8 → List κ} {pending : List κ}

/-- A full line is read. -/
theorem readTill_full (full : ¬ pending.length < limit) :
    readTill flags limit next input pending = some pending := by
  cases input <;> simp only [readTill, full, if_false]

/-- A line feed ends the line. -/
theorem readTill_ends (more : pending.length < limit)
    (ends : endsLine flags (translated flags arrived)) :
    readTill flags limit next (arrived :: input) pending = some pending := by
  rw [readTill, if_pos more, if_pos ends]

/-- Any other character is one of the line. -/
theorem readTill_other (more : pending.length < limit)
    (goesOn : ¬ endsLine flags (translated flags arrived)) :
    readTill flags limit next (arrived :: input) pending =
      readTill flags limit next input (next pending (translated flags arrived)) := by
  rw [readTill, if_pos more, if_neg goesOn]

/-- Two ways to keep the pending characters read the same line. -/
theorem readTill_map {ι : Type} {after : List ι → BitVec 8 → List ι} {view : List κ → List ι}
    (same : ∀ keys chr, view (next keys chr) = after (view keys) chr)
    (length : ∀ keys, (view keys).length = keys.length) :
    readTill flags limit after input (view pending) =
      (readTill flags limit next input pending).map view := by
  induction input generalizing pending with
  | nil =>
    rw [readTill, readTill, length]
    split <;> rfl
  | cons arrived input ih =>
    rw [readTill, readTill, length]
    split
    · dsimp only
      split
      · rfl
      · rw [← same, ih]
    · rfl

/-- A line is no longer than it may be. -/
theorem readTill_length_le {keys : List κ}
    (longer : ∀ pending chr, (next pending chr).length ≤ pending.length + 1)
    (read : readTill flags limit next input pending = some keys) (inside : pending.length ≤ limit) :
    keys.length ≤ limit := by
  induction input generalizing pending with
  | nil =>
    rw [readTill] at read
    split at read
    · cases read
    · cases read
      exact inside
  | cons arrived input ih =>
    by_cases more : pending.length < limit
    · by_cases ends : endsLine flags (translated flags arrived)
      · rw [readTill_ends more ends] at read
        cases read
        exact inside
      · rw [readTill_other more ends] at read
        exact ih read (Nat.le_trans (longer _ _) more)
    · rw [readTill_full more] at read
      cases read
      exact inside

/-- Too few characters for a line, without a line feed, are no line. -/
theorem readTill_fewer
    (longer : ∀ pending chr, (next pending chr).length ≤ pending.length + 1)
    (goesOn : ∀ arrived ∈ input, ¬ endsLine flags (translated flags arrived))
    (fewer : pending.length + input.length < limit) :
    readTill flags limit next input pending = none := by
  induction input generalizing pending with
  | nil => exact if_pos fewer
  | cons arrived input ih =>
    obtain ⟨first, others⟩ := List.forall_mem_cons.mp goesOn
    have length := longer pending (translated flags arrived)
    rw [List.length_cons] at fewer
    rw [readTill_other (by omega) first]
    exact ih others (by omega)

end Reading

/-- A read that is over deletes nothing. -/
theorem deletesFirst_full (full : ¬ line.length < limit) :
    ¬ DeletesFirst flags limit input line := by
  rintro ⟨before, arrived, after, _, reading, _⟩
  rw [lineOf, readTill_full full] at reading
  cases reading

/-- No character is left that could delete. -/
theorem deletesFirst_nil : ¬ DeletesFirst flags limit [] line := by
  rintro ⟨before, arrived, after, split, _⟩
  simp at split

/-- The first of the characters deletes the only one of the line, or it is read and a later one
deletes. -/
theorem deletesFirst_cons (more : line.length < limit) :
    DeletesFirst flags limit (arrived :: input) line ↔
      (¬ isSet flags ttyRaw ∧ translated flags arrived = 8 ∧ line.length = 1) ∨
      (¬ endsLine flags (translated flags arrived) ∧
        DeletesFirst flags limit input (edit flags line (translated flags arrived))) := by
  constructor
  · rintro ⟨before, deletes, after, split, reading, edits, back, single⟩
    cases before with
    | nil =>
      obtain ⟨rfl, -⟩ : arrived = deletes ∧ input = after := by simpa using split
      exact .inl ⟨edits, back, single⟩
    | cons first before =>
      obtain ⟨rfl, rfl⟩ : arrived = first ∧ input = before ++ deletes :: after := by
        simpa using split
      by_cases ends : endsLine flags (translated flags arrived)
      · rw [lineOf, readTill_ends more ends] at reading
        cases reading
      · rw [lineOf, readTill_other more ends] at reading
        exact .inr ⟨ends, before, deletes, after, rfl, reading, edits, back, single⟩
  · rintro (⟨edits, back, single⟩ | ⟨goesOn, before, deletes, after, rfl, reading, rest⟩)
    · exact ⟨[], arrived, input, rfl, if_pos more, edits, back, single⟩
    · refine ⟨arrived :: before, deletes, after, rfl, ?_, rest⟩
      rw [lineOf, readTill_other more goesOn]
      exact reading

end Editing

section Stores

variable {width : Nat}

/-- The stores of the loop: the index in `Buf` and the byte, one after the other. -/
def stores (terminal : Terminal width) (bytes : BitVec width) :
    List (BitVec 8) → BitVec width → List (Nat × BitVec 8)
  | [], _ => []
  | arrived :: input, i =>
    if i < bytes then
      let chr := translated terminal.flags arrived
      match terminal.puts chr with
      | .error _ => []
      | .ok _ =>
        if ¬ isSet terminal.flags ttyRaw ∧ chr = 8 ∧ i > 0 then
          ((i - 2).toNat, 0) :: stores terminal bytes input (i - 2 + 1)
        else if endsLine terminal.flags chr then
          if terminal.storesNewline then [(i.toNat, chr)] else []
        else (i.toNat, chr) :: stores terminal bytes input (i + 1)
    else []

/-- A store in a buffer. -/
def storeAt (buf : Nat → BitVec 8) (store : Nat × BitVec 8) : Nat → BitVec 8 :=
  Function.update buf store.1 store.2

variable {terminal : Terminal width} {bytes i : BitVec width} {input : List (BitVec 8)}
  {arrived : BitVec 8} {line : Line width} {puts : List (BitVec 8)}

/-- A full buffer is not stored to. -/
theorem stores_full (full : ¬ i < bytes) : stores terminal bytes input i = [] := by
  cases input <;> simp only [stores, full, if_false]

/-- A backspace that takes a character back clears the byte two in front of the index. -/
theorem stores_back (more : i < bytes)
    (echoed : terminal.puts (translated terminal.flags arrived) = .ok puts)
    (back : ¬ isSet terminal.flags ttyRaw ∧ translated terminal.flags arrived = 8 ∧ i > 0) :
    stores terminal bytes (arrived :: input) i =
      ((i - 2).toNat, 0) :: stores terminal bytes input (i - 2 + 1) := by
  simp only [stores, if_pos more, echoed]
  rw [if_pos back]

/-- The line feed that ends a line may be stored itself. -/
theorem stores_ends (more : i < bytes)
    (echoed : terminal.puts (translated terminal.flags arrived) = .ok puts)
    (keeps : ¬ (¬ isSet terminal.flags ttyRaw ∧ translated terminal.flags arrived = 8 ∧ i > 0))
    (ends : endsLine terminal.flags (translated terminal.flags arrived)) :
    stores terminal bytes (arrived :: input) i =
      if terminal.storesNewline then [(i.toNat, translated terminal.flags arrived)] else [] := by
  simp only [stores, if_pos more, echoed]
  rw [if_neg keeps, if_pos ends]

/-- Any other character is stored at the index. -/
theorem stores_other (more : i < bytes)
    (echoed : terminal.puts (translated terminal.flags arrived) = .ok puts)
    (keeps : ¬ (¬ isSet terminal.flags ttyRaw ∧ translated terminal.flags arrived = 8 ∧ i > 0))
    (goesOn : ¬ endsLine terminal.flags (translated terminal.flags arrived)) :
    stores terminal bytes (arrived :: input) i =
      (i.toNat, translated terminal.flags arrived) :: stores terminal bytes input (i + 1) := by
  simp only [stores, if_pos more, echoed]
  rw [if_neg keeps, if_neg goesOn]

/-- The read goes on behind the character that a backspace leaves the last one. -/
theorem readChars_back (more : line.i < bytes)
    (echoed : terminal.puts (translated terminal.flags arrived) = .ok puts)
    (back : ¬ isSet terminal.flags ttyRaw ∧ translated terminal.flags arrived = 8 ∧ line.i > 0) :
    readChars terminal bytes (arrived :: input) line =
      readChars terminal bytes input
        ⟨line.i - 2 + 1, storeAt line.buf ((line.i - 2).toNat, 0), line.echoed ++ puts⟩ := by
  simp only [readChars, if_pos more, echoed, bind, Except.bind]
  rw [if_pos back]
  rfl

/-- A line feed ends the read of a line. -/
theorem readChars_ends (more : line.i < bytes)
    (echoed : terminal.puts (translated terminal.flags arrived) = .ok puts)
    (keeps : ¬ (¬ isSet terminal.flags ttyRaw ∧ translated terminal.flags arrived = 8 ∧
      line.i > 0))
    (ends : endsLine terminal.flags (translated terminal.flags arrived)) :
    readChars terminal bytes (arrived :: input) line =
      .ok ⟨line.i, if terminal.storesNewline then
          storeAt line.buf (line.i.toNat, translated terminal.flags arrived)
        else line.buf, line.echoed ++ puts⟩ := by
  simp only [readChars, if_pos more, echoed, bind, Except.bind]
  rw [if_neg keeps, if_pos (show _ ∧ _ from ends)]
  cases terminal.storesNewline <;> rfl

/-- The read goes on behind any other character. -/
theorem readChars_other (more : line.i < bytes)
    (echoed : terminal.puts (translated terminal.flags arrived) = .ok puts)
    (keeps : ¬ (¬ isSet terminal.flags ttyRaw ∧ translated terminal.flags arrived = 8 ∧
      line.i > 0))
    (goesOn : ¬ endsLine terminal.flags (translated terminal.flags arrived)) :
    readChars terminal bytes (arrived :: input) line =
      readChars terminal bytes input ⟨line.i + 1,
        storeAt line.buf (line.i.toNat, translated terminal.flags arrived),
        line.echoed ++ puts⟩ := by
  simp only [readChars, if_pos more, echoed, bind, Except.bind]
  rw [if_neg keeps, if_neg (show ¬ (_ ∧ _) from goesOn)]
  rfl

/-- A loop that returns, character by character. -/
inductive ReadsChars (terminal : Terminal width) (bytes : BitVec width) :
    List (BitVec 8) → Line width → Line width → Prop
  /-- The buffer is full. -/
  | full {input : List (BitVec 8)} {line : Line width} :
      ¬ line.i < bytes → ReadsChars terminal bytes input line line
  /-- A backspace takes a character back. -/
  | back {arrived : BitVec 8} {input puts : List (BitVec 8)} {line last : Line width} :
      line.i < bytes → terminal.puts (translated terminal.flags arrived) = .ok puts →
        (¬ isSet terminal.flags ttyRaw ∧ translated terminal.flags arrived = 8 ∧ line.i > 0) →
          ReadsChars terminal bytes input
              ⟨line.i - 2 + 1, storeAt line.buf ((line.i - 2).toNat, 0), line.echoed ++ puts⟩ last →
            ReadsChars terminal bytes (arrived :: input) line last
  /-- A line feed ends the line. -/
  | ends {arrived : BitVec 8} {input puts : List (BitVec 8)} {line : Line width} :
      line.i < bytes → endsLine terminal.flags (translated terminal.flags arrived) →
        terminal.puts (translated terminal.flags arrived) = .ok puts →
          ReadsChars terminal bytes (arrived :: input) line
            ⟨line.i, if terminal.storesNewline then
                storeAt line.buf (line.i.toNat, translated terminal.flags arrived)
              else line.buf, line.echoed ++ puts⟩
  /-- Any other character is stored. -/
  | other {arrived : BitVec 8} {input puts : List (BitVec 8)} {line last : Line width} :
      line.i < bytes → terminal.puts (translated terminal.flags arrived) = .ok puts →
        ¬ (¬ isSet terminal.flags ttyRaw ∧ translated terminal.flags arrived = 8 ∧ line.i > 0) →
          ¬ endsLine terminal.flags (translated terminal.flags arrived) →
            ReadsChars terminal bytes input ⟨line.i + 1,
                storeAt line.buf (line.i.toNat, translated terminal.flags arrived),
                line.echoed ++ puts⟩ last →
              ReadsChars terminal bytes (arrived :: input) line last

/-- A line feed takes no character back. -/
theorem not_back_of_ends {flags i : BitVec width} {chr : BitVec 8} (ends : endsLine flags chr) :
    ¬ (¬ isSet flags ttyRaw ∧ chr = 8 ∧ i > 0) :=
  fun back => not_endsLine_back back.2.1 ends

/-- A loop that returns reads character by character. -/
theorem readsChars {last : Line width} (ended : readChars terminal bytes input line = .ok last) :
    ReadsChars terminal bytes input line last := by
  induction input generalizing line with
  | nil =>
    by_cases more : line.i < bytes
    · rw [readChars, if_pos more] at ended
      cases ended
    · rw [readChars_full more] at ended
      cases ended
      exact .full more
  | cons arrived input ih =>
    by_cases more : line.i < bytes
    · cases echoed : terminal.puts (translated terminal.flags arrived) with
      | error reason =>
        rw [readChars_stops more echoed] at ended
        cases ended
      | ok puts =>
        by_cases back : ¬ isSet terminal.flags ttyRaw ∧
            translated terminal.flags arrived = 8 ∧ line.i > 0
        · rw [readChars_back more echoed back] at ended
          exact .back more echoed back (ih ended)
        · by_cases ends : endsLine terminal.flags (translated terminal.flags arrived)
          · rw [readChars_ends more echoed back ends] at ended
            cases ended
            exact .ends more ends echoed
          · rw [readChars_other more echoed back ends] at ended
            exact .other more echoed back ends (ih ended)
    · rw [readChars_full more] at ended
      cases ended
      exact .full more

/-- The buffer that a read leaves is the one that its stores make. -/
theorem ReadsChars.buf {last : Line width} (reads : ReadsChars terminal bytes input line last) :
    last.buf = (stores terminal bytes input line.i).foldl storeAt line.buf := by
  induction reads with
  | full full =>
    rw [stores_full full]
    rfl
  | back more echoed back _ ih =>
    rw [stores_back more echoed back, List.foldl_cons]
    exact ih
  | @ends arrived _ _ line more ends echoed =>
    rw [stores_ends more echoed (not_back_of_ends ends) ends]
    cases terminal.storesNewline <;> rfl
  | other more echoed keeps goesOn _ ih =>
    rw [stores_other more echoed keeps goesOn, List.foldl_cons]
    exact ih

/-- Until a buffer is full, its last byte stays clear. -/
theorem ReadsChars.last_clear {last : Line width}
    (reads : ReadsChars terminal bytes input line last) (keeps : terminal.storesNewline = false)
    (clear : line.i < bytes → line.buf (bytes.toNat - 1) = 0) (fewer : last.i < bytes) :
    last.buf (bytes.toNat - 1) = 0 := by
  induction reads with
  | full full => exact absurd fewer full
  | back more _ _ _ ih =>
    refine ih (fun _ => ?_) fewer
    show storeAt _ _ _ = 0
    rw [storeAt, Function.update_apply, clear more, ite_self]
  | ends more _ _ =>
    rw [keeps]
    exact clear more
  | other more _ _ _ _ ih =>
    refine ih (fun room => ?_) fewer
    -- The character is stored in front of the last byte.
    have next := toNat_forwards more ▸ BitVec.lt_def.mp room
    exact (Function.update_of_ne (by omega) _ _).trans (clear more)

/-- A read of a line that returns has ended its loop and divided the index. -/
theorem readLine_ok {dest : Nat → BitVec 8} {size elements : BitVec width} {transfer : Transfer}
    {last : Line width}
    (returned : readLine terminal input (some dest) size elements = .ok (transfer, last)) :
    readChars terminal (size * elements) input ⟨0, dest, []⟩ = .ok last ∧
      perSize last.i size = .ok transfer := by
  simp only [readLine, checked, bind, Except.bind] at returned
  cases ended : readChars terminal (size * elements) input ⟨0, dest, []⟩ with
  | error reason =>
    rw [ended] at returned
    cases returned
  | ok line =>
    rw [ended] at returned
    cases counted : perSize line.i size with
    | error reason =>
      simp only [counted] at returned
      cases returned
    | ok moved =>
      simp only [counted] at returned
      cases returned
      exact ⟨rfl, counted⟩

/-- The buffer that `SerialReadFunction` and `ps2_keyboard_read` leave is made by their stores. -/
theorem readLine_buf {dest : Nat → BitVec 8} {size elements : BitVec width} {transfer : Transfer}
    {last : Line width}
    (returned : readLine terminal input (some dest) size elements = .ok (transfer, last)) :
    last.buf = (stores terminal (size * elements) input 0).foldl storeAt dest :=
  (readsChars (readLine_ok returned).1).buf

/-- With two characters in front of an index in a buffer, two back is the index less two. -/
theorem toNat_sub_two_of_le {i : BitVec width} (more : i < bytes) (several : 2 ≤ i.toNat) :
    (i - 2).toNat = i.toNat - 2 := by
  have two : (2 : BitVec width).toNat = 2 :=
    Nat.mod_eq_of_lt (show 2 < 2 ^ width from
      Nat.lt_of_le_of_lt several (Nat.lt_trans (show i.toNat < bytes.toNat from more) bytes.isLt))
  have fits : 2 ≤ i := by
    rw [BitVec.le_def, two]
    exact several
  rw [BitVec.toNat_sub_of_le fits, two]

/-- One character behind the front of a buffer, two back is outside of it. -/
theorem toNat_sub_two {i : BitVec width} (positive : 0 < i) (more : i < bytes) :
    (i - 2).toNat < bytes.toNat ↔ i.toNat ≠ 1 := by
  have below := bytes.isLt
  have first : 0 < i.toNat := positive
  have inside : i.toNat < bytes.toNat := more
  constructor
  · intro back single
    have same : i - 2 = i - 1 - 1 := by grind
    have one : (1 : BitVec width).toNat = 1 := Nat.mod_eq_of_lt (show 1 < 2 ^ width by omega)
    have unit : i = 1 := BitVec.eq_of_toNat_eq (by rw [single, one])
    rw [same, unit, BitVec.sub_self, BitVec.toNat_sub, one, BitVec.toNat_zero, Nat.add_zero,
      Nat.mod_eq_of_lt (by omega)] at back
    omega
  · intro several
    rw [toNat_sub_two_of_le more (by omega)]
    omega

/-- The pending characters after a backspace that takes one back. -/
theorem edit_back {flags : BitVec width} {pending : List (BitVec 8)} {chr : BitVec 8}
    (back : ¬ isSet flags ttyRaw ∧ chr = 8 ∧ 0 < pending.length) :
    edit flags pending chr = pending.dropLast := by
  rw [edit, if_pos ⟨back.1, back.2.1, List.ne_nil_of_length_pos back.2.2⟩]

/-- The pending characters after any other one. -/
theorem edit_other {flags : BitVec width} {pending : List (BitVec 8)} {chr : BitVec 8}
    (keeps : ¬ (¬ isSet flags ttyRaw ∧ chr = 8 ∧ 0 < pending.length)) :
    edit flags pending chr = pending ++ [chr] := by
  rw [edit, if_neg fun back => keeps ⟨back.1, back.2.1, List.length_pos_of_ne_nil back.2.2⟩]

/-- While a line is read, the stores stay in the buffer exactly until the first character of the
line is taken back. -/
theorem stores_inside (echoes : terminal.Echoes) {pending : List (BitVec 8)}
    (length : pending.length = i.toNat) :
    (∀ store ∈ stores terminal bytes input i, store.1 < bytes.toNat) ↔
      ¬ DeletesFirst terminal.flags bytes.toNat input pending := by
  induction input generalizing i pending with
  | nil => simp [stores, deletesFirst_nil]
  | cons arrived input ih =>
    by_cases more : i < bytes
    · have below : i.toNat < bytes.toNat := more
      rw [deletesFirst_cons (length ▸ below), length]
      obtain ⟨puts, echoed⟩ := echoes (translated terminal.flags arrived)
      by_cases back : ¬ isSet terminal.flags ttyRaw ∧
          translated terminal.flags arrived = 8 ∧ i > 0
      · have edited := @edit_back _ terminal.flags pending _ ⟨back.1, back.2.1, length ▸ back.2.2⟩
        have shorter : pending.dropLast.length = (i - 2 + 1).toNat := by
          have one := toNat_backwards back.2.2 more
          rw [List.length_dropLast]
          omega
        rw [stores_back more echoed back, List.forall_mem_cons, toNat_sub_two back.2.2 more,
          ih shorter, edited]
        have goesOn := @not_endsLine_back _ terminal.flags 8 rfl
        simp only [back.1, back.2.1, goesOn, not_false_eq_true, true_and, not_or, ne_eq]
      · have edited := @edit_other _ terminal.flags pending (translated terminal.flags arrived)
          fun held => back ⟨held.1, held.2.1, (length ▸ held.2.2 : 0 < i.toNat)⟩
        have kept : ¬ (¬ isSet terminal.flags ttyRaw ∧
            translated terminal.flags arrived = 8 ∧ i.toNat = 1) := fun single =>
          back ⟨single.1, single.2.1, (show 0 < i.toNat by omega)⟩
        by_cases ends : endsLine terminal.flags (translated terminal.flags arrived)
        · rw [stores_ends more echoed back ends]
          have stored : ∀ store ∈ (if terminal.storesNewline then
              [(i.toNat, translated terminal.flags arrived)] else []), store.1 < bytes.toNat := by
            intro store held
            cases newline : terminal.storesNewline <;> simp [newline] at held
            rw [held]
            exact below
          refine iff_of_true stored ?_
          rintro (single | ⟨goesOn, _⟩)
          · exact kept single
          · exact goesOn ends
        · have longer : (pending ++ [translated terminal.flags arrived]).length =
              (i + 1).toNat := by
            rw [toNat_forwards more, List.length_append, length, List.length_singleton]
          rw [stores_other more echoed back ends, List.forall_mem_cons, ih longer, edited]
          simp only [below, true_and, kept, false_or, ends, not_false_eq_true]
    · rw [stores_full more]
      have full : ¬ pending.length < bytes.toNat := fun less =>
        more (show i.toNat < bytes.toNat from length ▸ less)
      simp [deletesFirst_full full]

/-- An echo that does not return lets nothing be stored. -/
theorem stores_silent (silent : ∀ chr, ∃ reason, terminal.puts chr = .error reason) :
    stores terminal bytes input i = [] := by
  cases input with
  | nil => rfl
  | cons arrived input =>
    obtain ⟨reason, stops⟩ := silent (translated terminal.flags arrived)
    rw [stores]
    simp only [stops, ite_self]

/-- The keyboard echoes nothing without `TTY_ECHO`. -/
theorem keyboardTerminal_echoes {flags : BitVec width} (quiet : ¬ isSet flags ttyEcho) :
    (keyboardTerminal flags).Echoes := by
  intro chr
  exact ⟨[], if_neg quiet⟩

/-- `SerialReadFunction` and `ps2_keyboard_read` store inside their buffers, whatever arrives, the
flags and the request, exactly when no first character of a line is taken back; with `TTY_ECHO` the
keyboard's echo panics before anything is stored. -/
theorem line_stores_inside_iff (flags size elements : BitVec width) :
    (∀ input, (∀ store ∈ stores (serialTerminal flags) (size * elements) input 0,
        store.1 < (size * elements).toNat) ↔
      ¬ DeletesFirst flags (size * elements).toNat input []) ∧
    ∀ keyboard polls, (∀ store ∈ stores (keyboardTerminal flags) (size * elements)
        (ps2Getchars keyboard polls) 0, store.1 < (size * elements).toNat) ↔
      isSet flags ttyEcho ∨
        ¬ DeletesFirst flags (size * elements).toNat (ps2Getchars keyboard polls) [] := by
  have start : ([] : List (BitVec 8)).length = (0 : BitVec width).toNat := by simp
  refine ⟨fun input => stores_inside (serialTerminal_echoes flags) start, fun keyboard polls => ?_⟩
  by_cases echo : isSet flags ttyEcho
  · have silent : ∀ chr, ∃ reason, (keyboardTerminal flags).puts chr = .error reason :=
      fun chr => ⟨.panic .unintendedCall, if_pos echo⟩
    rw [stores_silent silent]
    simp [echo]
  · rw [stores_inside (keyboardTerminal_echoes echo) start]
    simp only [echo, false_or]
    rfl

/-- A letter and a backspace make both functions store in front of the buffer. -/
theorem store_in_front :
    ¬ (∀ (flags size elements : BitVec 64) (input : List (BitVec 8)),
      ∀ store ∈ stores (serialTerminal flags) (size * elements) input 0,
        store.1 < (size * elements).toNat) ∧
    ¬ ∀ (flags size elements : BitVec 64) (keyboard : Keyboard) (polls : List Poll),
      ∀ store ∈ stores (keyboardTerminal flags) (size * elements) (ps2Getchars keyboard polls) 0,
        store.1 < (size * elements).toNat := by
  constructor
  · intro inside
    exact absurd (inside ttyCooked 1 2 [97, 8] (2 ^ 64 - 1, 0) (by decide +kernel))
      (by decide +kernel)
  · intro inside
    exact absurd (inside ttyCooked 1 2 ⟨false, false⟩ [⟨1, 1, 0x1e⟩, ⟨1, 1, 0x0e⟩]
      (2 ^ 64 - 1, 0) (by decide +kernel)) (by decide +kernel)

end Stores

/-- A pending character. -/
structure Key where
  /-- The character. -/
  chr : BitVec 8
  /-- Whether a character behind it was taken back. -/
  bared : Bool

/-- The byte in the buffer for a pending character. -/
def Key.held (key : Key) : BitVec 8 :=
  if key.bared then 0 else key.chr

/-- The last pending character after the one behind it was taken back. -/
def bareLast : List Key → List Key
  | [] => []
  | key :: keys => { key with bared := true } :: keys

/-- The pending characters hold the bytes of the buffer, the last one first. -/
def Holds (buf : Nat → BitVec 8) : List Key → Prop
  | [] => True
  | key :: keys => buf keys.length = key.held ∧ Holds buf keys

section Keys

variable {width : Nat}

/-- The pending characters after another one, the last one first. -/
def press (flags : BitVec width) (keys : List Key) (chr : BitVec 8) : List Key :=
  if ¬ isSet flags ttyRaw ∧ chr = 8 ∧ keys ≠ [] then bareLast keys.tail else ⟨chr, false⟩ :: keys

/-- The characters of the line that comes of the characters that arrive, the last one first. -/
def keysOf (flags : BitVec width) (limit : Nat) (input : List (BitVec 8)) (keys : List Key) :
    Option (List Key) :=
  readTill flags limit (press flags) input keys

/-- The characters without the marks. -/
def typed (keys : List Key) : List (BitVec 8) :=
  (keys.map Key.chr).reverse

/-- A mark changes no character. -/
theorem typed_bareLast (keys : List Key) : typed (bareLast keys) = typed keys := by
  cases keys <;> rfl

/-- The marks do not change how a line is edited. -/
theorem typed_press (flags : BitVec width) (keys : List Key) (chr : BitVec 8) :
    typed (press flags keys chr) = edit flags (typed keys) chr := by
  have empty : typed keys ≠ [] ↔ keys ≠ [] := by simp [typed]
  by_cases back : ¬ isSet flags ttyRaw ∧ chr = 8 ∧ keys ≠ []
  · rw [press, if_pos back, edit, if_pos ⟨back.1, back.2.1, empty.mpr back.2.2⟩, typed_bareLast,
      typed, typed, List.map_tail, List.dropLast_reverse]
  · rw [press, if_neg back, edit, if_neg fun held => back ⟨held.1, held.2.1, empty.mp held.2.2⟩]
    simp [typed]

/-- The marked characters are those of the line. -/
theorem lineOf_typed (flags : BitVec width) (limit : Nat) (input : List (BitVec 8)) :
    lineOf flags limit input [] = (keysOf flags limit input []).map typed :=
  @readTill_map _ flags limit input _ _ [] _ _ typed (typed_press flags) (by simp [typed])

variable {buf : Nat → BitVec 8} {keys : List Key} {index : Nat} {chr : BitVec 8}

/-- A store behind the pending characters keeps them. -/
theorem Holds.storeAt (held : Holds buf keys) (behind : keys.length ≤ index) :
    Holds (storeAt buf (index, chr)) keys := by
  induction keys with
  | nil => trivial
  | cons key keys ih =>
    have less : keys.length < index := behind
    refine ⟨?_, ih held.2 (Nat.le_of_lt less)⟩
    rw [Unarddeg.storeAt, Function.update_of_ne (Nat.ne_of_lt less)]
    exact held.1

/-- A cleared byte is that of a character behind which one was taken back. -/
theorem Holds.back {i bytes : BitVec width} (held : Holds buf keys)
    (length : i.toNat = keys.length) (more : i < bytes) :
    Holds (Unarddeg.storeAt buf ((i - 2).toNat, 0)) (bareLast keys.tail) := by
  cases keys with
  | nil => trivial
  | cons taken keys =>
    cases keys with
    | nil => trivial
    | cons key keys =>
      have several : i.toNat = keys.length + 2 := length
      have exact := toNat_sub_two_of_le more (by omega)
      rw [several, Nat.add_sub_cancel] at exact
      rw [exact]
      refine ⟨?_, held.2.2.storeAt (Nat.le_refl _)⟩
      rw [Unarddeg.storeAt, Function.update_self]
      rfl

/-- The bytes in front of the index are those of the pending characters. -/
theorem Holds.bytes (held : Holds buf keys) :
    (List.range keys.length).map buf = (keys.map Key.held).reverse := by
  induction keys with
  | nil => rfl
  | cons key keys ih =>
    rw [List.length_cons, List.range_succ, List.map_append, ih held.2, List.map_singleton, held.1,
      List.map_cons, List.reverse_cons]

/-- After a backspace that takes a character back there is one less. -/
theorem length_bareLast_tail (keys : List Key) :
    (bareLast keys.tail).length = keys.length - 1 := by
  rw [← List.length_tail]
  cases keys.tail <;> rfl

/-- A character makes a line at most one longer. -/
theorem press_length_le (flags : BitVec width) (keys : List Key) (chr : BitVec 8) :
    (press flags keys chr).length ≤ keys.length + 1 := by
  unfold press
  split
  · rw [length_bareLast_tail]
    omega
  · exact Nat.le_refl _

variable {terminal : Terminal width} {bytes : BitVec width} {input : List (BitVec 8)}
  {line last : Line width}

/-- The loop keeps the pending characters in the buffer in front of its index, except those whose
bytes it clears, and ends when their line does. -/
theorem ReadsChars.pending (reads : ReadsChars terminal bytes input line last)
    (held : Holds line.buf keys) (length : line.i.toNat = keys.length) :
    ∃ all, keysOf terminal.flags bytes.toNat input keys = some all ∧
      last.i.toNat = all.length ∧ Holds last.buf all := by
  unfold keysOf
  induction reads generalizing keys with
  | full full =>
    have full : ¬ keys.length < bytes.toNat := fun less =>
      full (BitVec.lt_def.mpr (length ▸ less))
    exact ⟨keys, readTill_full full, length, held⟩
  | back more echoed back _ ih =>
    have below : keys.length < bytes.toNat := length ▸ BitVec.lt_def.mp more
    have positive : 0 < keys.length := length ▸ BitVec.lt_def.mp back.2.2
    have one := toNat_backwards back.2.2 more
    rw [readTill_other below (not_endsLine_back back.2.1), press,
      if_pos ⟨back.1, back.2.1, List.ne_nil_of_length_pos positive⟩]
    refine ih (held.back length more) ?_
    rw [length_bareLast_tail]
    dsimp only
    omega
  | ends more ends _ =>
    have below : keys.length < bytes.toNat := length ▸ BitVec.lt_def.mp more
    refine ⟨keys, readTill_ends below ends, length, ?_⟩
    cases terminal.storesNewline with
    | false => exact held
    | true => exact held.storeAt (Nat.le_of_eq length.symm)
  | @other arrived _ _ line _ more _ keeps goesOn _ ih =>
    have below : keys.length < bytes.toNat := length ▸ BitVec.lt_def.mp more
    rw [readTill_other below goesOn, press, if_neg fun taken => keeps ⟨taken.1, taken.2.1,
      BitVec.lt_def.mpr (length ▸ List.length_pos_of_ne_nil taken.2.2)⟩]
    have stored : Holds (storeAt line.buf (line.i.toNat, translated terminal.flags arrived))
        (⟨translated terminal.flags arrived, false⟩ :: keys) := by
      refine ⟨?_, held.storeAt (Nat.le_of_eq length.symm)⟩
      rw [length, Unarddeg.storeAt, Function.update_self]
      rfl
    refine ih stored ?_
    rw [List.length_cons, ← length]
    exact toNat_forwards more

/-- The buffer holds the characters themselves unless one was bared that is not zero. -/
theorem held_eq_typed_iff (keys : List Key) :
    (keys.map Key.held).reverse = typed keys ↔ ∀ key ∈ keys, key.bared → key.chr = 0 := by
  rw [typed, List.reverse_inj, List.map_inj_left]
  refine forall₂_congr fun key _ => ?_
  unfold Key.held
  cases key.bared
  · exact iff_of_true rfl fun bared => absurd bared (by decide)
  · exact ⟨fun clear _ => clear.symm, fun clear => (clear rfl).symm⟩

/-- The result as an index: right exactly for less than `2 ^ 31` characters. -/
theorem asInt_index_iff {i : BitVec width} :
    (asInt i).toInt.toNat = i.toNat ↔ i.toNat < 2 ^ 31 := by
  have exact := @asInt_eq_iff _ i i.toNat
  have small := (asInt i).toInt_lt
  constructor
  · intro same
    omega
  · intro less
    rw [exact.mpr ⟨less, Nat.mod_eq_of_lt (by omega)⟩]
    exact Int.toNat_natCast _

/-- The bytes that `SerialReadFunction` counts are the line that was edited
exactly when an `int` counts it and no character that is left, but a NUL, had a character behind it
taken back. -/
theorem serial_line_iff (flags elements : BitVec width) (input : List (BitVec 8))
    (dest : Nat → BitVec 8) (transfer : Transfer) (last : Line width)
    (returned : serialReadFunction flags input (some dest) 1 elements = .ok (transfer, last)) :
    lineOf flags elements.toNat input [] =
        some ((List.range transfer.result.toInt.toNat).map last.buf) ↔
      ∃ keys, keysOf flags elements.toNat input [] = some keys ∧ keys.length < 2 ^ 31 ∧
        ∀ key ∈ keys, key.bared → key.chr = 0 := by
  obtain ⟨ended, counted⟩ := readLine_ok returned
  rw [show 1 * elements = elements by simp] at ended
  obtain ⟨keys, read, length, held⟩ := @ReadsChars.pending _ [] _ _ _ _ _ (readsChars ended) trivial
    (by simp)
  have result : transfer.result = asInt last.i := by
    unfold perSize at counted
    split at counted
    · cases counted
    · cases counted
      rw [show last.i / 1 = last.i by simp]
  have read : keysOf flags elements.toNat input [] = some keys := read
  have bytes := held.bytes
  rw [lineOf_typed, read, Option.map_some, Option.some_inj, result]
  constructor
  · intro same
    have counts : (asInt last.i).toInt.toNat = last.i.toNat := by
      have lengths := congrArg List.length same
      simp only [typed, List.length_reverse, List.length_map, List.length_range] at lengths
      omega
    refine ⟨keys, rfl, length ▸ asInt_index_iff.mp counts, ?_⟩
    rw [counts, length, bytes] at same
    exact (held_eq_typed_iff keys).mp same.symm
  · rintro ⟨others, same, less, clear⟩
    cases same
    rw [asInt_index_iff.mpr (length ▸ less), length, bytes]
    exact ((held_eq_typed_iff keys).mpr clear).symm

/-- The first line feed ends the line `ab`. -/
theorem serial_line_iff_sample :
    lineOf (ttyCooked : BitVec 64) 4 [97, 98, 10] [] = some [97, 98] ↔
      ∃ keys, keysOf (ttyCooked : BitVec 64) 4 [97, 98, 10] [] = some keys ∧
        keys.length < 2 ^ 31 ∧ ∀ key ∈ keys, key.bared → key.chr = 0 :=
  serial_line_iff (ttyCooked : BitVec 64) 4 [97, 98, 10] (fun _ => 0) _ _ rfl

/-- Of `a`, `b`, a backspace and `c` a NUL and `c` are read. -/
theorem taken_back_wrong :
    ¬ ∀ (flags elements : BitVec 64) (input : List (BitVec 8)) (dest : Nat → BitVec 8)
      (transfer : Transfer) (last : Line 64), ¬ isSet flags ttyRaw →
      serialReadFunction flags input (some dest) 1 elements = .ok (transfer, last) →
      lineOf flags elements.toNat input [] =
        some ((List.range transfer.result.toInt.toNat).map last.buf) := by
  intro edited
  have wrong := edited ttyCooked 4 [97, 98, 8, 99, 10] (fun _ => 0) _ _ (by decide) rfl
  exact absurd wrong (by decide +kernel)

end Keys

end Unarddeg
