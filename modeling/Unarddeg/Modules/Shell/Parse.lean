import Mathlib.Logic.Function.Basic
import Unarddeg.Kernel.Panic
import Unarddeg.Library.Reader

/-!
# The arguments of a command

`Parse` of `modules/shell/main.c`. The memory from `b` on is the list of its bytes that may be read,
and a store in `cmd` is checked against its two bounds. What `Parse` reads is the list of arguments
that `nextArgument` takes off the text one after the other, and what it stores is that list
(`parse_ok`).
-/

namespace Unarddeg.Shell

open Library

/-- `CMDM_LEN`. -/
def cmdmLen : Nat := 64

/-- `MARGS`. -/
def margs : Nat := 32

/-- The character between two words. -/
def space : BitVec 8 := 32

/-- The character around a quoted argument. -/
def doubleQuote : BitVec 8 := 34

/-- The character in front of an escaped one. -/
def backslash : BitVec 8 := 92

/-- `char cmd[MARGS][CMDM_LEN]`. -/
abbrev Cmd := Nat → Nat → BitVec 8

/-- What a store makes of `cmd`. -/
def Cmd.set (cmd : Cmd) (n i : Nat) (chr : BitVec 8) : Cmd :=
  Function.update cmd n (Function.update (cmd n) i chr)

/-- `cmd[n][i] = chr`. -/
def store (cmd : Cmd) (n i : Nat) (chr : BitVec 8) : Except Stop Cmd :=
  if n < margs ∧ i < cmdmLen then .ok (cmd.set n i chr) else .error .outOfBounds

/-- `*b`. -/
def charAt : List (BitVec 8) → Except Stop (BitVec 8)
  | [] => .error .outOfBounds
  | chr :: _ => .ok chr

/-- The character that stands for itself behind a backslash, or for a control character. -/
def unescaped (chr : BitVec 8) : BitVec 8 :=
  if chr = 110 then 10
  else if chr = 114 then 13
  else if chr = 116 then 9
  else if chr = 97 then 7
  else if chr = 118 then 11
  else chr

/-- The variables of `Parse` behind the loop over an argument. -/
structure Scan where
  /-- The memory from `b` on. -/
  b : List (BitVec 8)
  /-- `i`. -/
  i : Nat
  /-- `cmd`. -/
  cmd : Cmd

/-- The variables of `Parse` when a round of its loop begins. -/
structure Parsing where
  /-- The memory from `b` on. -/
  b : List (BitVec 8)
  /-- `N`. -/
  n : Nat
  /-- `cmd`. -/
  cmd : Cmd

/-- The loop over spaces. -/
def skipSpaces : List (BitVec 8) → Except Stop (List (BitVec 8))
  | [] => .error .outOfBounds
  | chr :: b => if chr = space then skipSpaces b else .ok (chr :: b)

/-- The loop over a quoted argument. -/
def quoted (n : Nat) : List (BitVec 8) → Nat → Cmd → Except Stop Scan
  | [], _, _ => .error .outOfBounds
  | chr :: b, i, cmd =>
    if chr ≠ 0 ∧ chr ≠ doubleQuote ∧ i < cmdmLen - 1 then
      if chr = backslash then
        match b with
        | [] => .error .outOfBounds
        | escaped :: rest =>
          if escaped ≠ 0 then do
            let cmd ← store cmd n i (unescaped escaped)
            quoted n rest (i + 1) cmd
          else do
            let cmd ← store cmd n i chr
            quoted n (escaped :: rest) (i + 1) cmd
      else do
        let cmd ← store cmd n i chr
        quoted n b (i + 1) cmd
    else .ok ⟨chr :: b, i, cmd⟩

/-- The loop over an argument without quotes. -/
def unquoted (n : Nat) : List (BitVec 8) → Nat → Cmd → Except Stop Scan
  | [], _, _ => .error .outOfBounds
  | chr :: b, i, cmd =>
    if chr ≠ 0 ∧ chr ≠ space ∧ i < cmdmLen - 1 then do
      let cmd ← store cmd n i chr
      unquoted n b (i + 1) cmd
    else .ok ⟨chr :: b, i, cmd⟩

/-- The argument at `b`, without the NUL behind it. -/
def scan (n : Nat) (b : List (BitVec 8)) (cmd : Cmd) : Except Stop Scan := do
  if (← charAt b) = doubleQuote then
    let ended ← quoted n b.tail 0 cmd
    if (← charAt ended.b) = doubleQuote then pure { ended with b := ended.b.tail }
    else pure ended
  else unquoted n b 0 cmd

/-- A round of the loop of `Parse`, unless the loop ends. -/
def parseRound (parsing : Parsing) : Except Stop (Option Parsing) := do
  if (← charAt parsing.b) ≠ 0 ∧ parsing.n < margs then
    let b ← skipSpaces parsing.b
    if (← charAt b) = 0 then pure none
    else
      let ended ← scan parsing.n b parsing.cmd
      let cmd ← store ended.cmd parsing.n ended.i 0
      pure (some ⟨ended.b, parsing.n + 1, cmd⟩)
  else pure none

/-- The variables after some rounds of the loop of `Parse`, or after fewer if it ends. -/
def parseRounds : Nat → Parsing → Except Stop Parsing
  | 0, parsing => pure parsing
  | count + 1, parsing => do
    match ← parseRound parsing with
    | none => pure parsing
    | some next => parseRounds count next

/-- The loop of `Parse`. -/
def parseLoop : Nat → Parsing → Except Stop Parsing
  | 0, _ => .error .hang
  | fuel + 1, parsing => do
    match ← parseRound parsing with
    | none => pure parsing
    | some next => parseLoop fuel next

/-- `Parse`: its result and `cmd` after it. -/
def parse (b : List (BitVec 8)) (cmd : Cmd) : Except Stop (Nat × Cmd) := do
  let last ← parseLoop (margs + 1) ⟨b, 0, cmd⟩
  pure (last.n, last.cmd)

/-! ## What is read -/

/-- The next character of a quoted argument. -/
def quotedChar : List (BitVec 8) → Option (BitVec 8 × List (BitVec 8))
  | [] => none
  | chr :: text =>
    if chr = 0 ∨ chr = doubleQuote then none
    else if chr = backslash ∧ text.headD 0 ≠ 0 then some (unescaped (text.headD 0), text.tail)
    else some (chr, text)

/-- The next character of an argument without quotes. -/
def plainChar : List (BitVec 8) → Option (BitVec 8 × List (BitVec 8))
  | [] => none
  | chr :: text => if chr = 0 ∨ chr = space then none else some (chr, text)

/-- The text behind a quoted argument, whose quote may be missing. -/
def closed (text : List (BitVec 8)) : List (BitVec 8) :=
  if text.headD 0 = doubleQuote then text.tail else text

/-- The argument with which a text begins, and the text behind it. -/
def argumentOf (text : List (BitVec 8)) : List (BitVec 8) × List (BitVec 8) :=
  if text.headD 0 = doubleQuote then
    let (chars, rest) := readUpTo quotedChar (cmdmLen - 1) text.tail
    (chars, closed rest)
  else readUpTo plainChar (cmdmLen - 1) text

/-- The text behind the spaces with which it begins. -/
def unspaced (text : List (BitVec 8)) : List (BitVec 8) := text.dropWhile fun chr => chr == space

/-- The next argument. -/
def nextArgument (text : List (BitVec 8)) : Option (List (BitVec 8) × List (BitVec 8)) :=
  if (unspaced text).headD 0 = 0 then none else some (argumentOf (unspaced text))

/-! ## What is stored -/

/-- What characters that are stored one after the other make of `cmd`. -/
def Cmd.write (cmd : Cmd) (n : Nat) : Nat → List (BitVec 8) → Cmd
  | _, [] => cmd
  | i, chr :: chars => (cmd.set n i chr).write n (i + 1) chars

/-- What arguments that are stored one after the other make of `cmd`. -/
def Cmd.place (cmd : Cmd) : Nat → List (List (BitVec 8)) → Cmd
  | _, [] => cmd
  | n, chars :: args => (cmd.write n 0 (chars ++ [0])).place (n + 1) args

/-- The string that begins at `cmd[k]`. -/
def Cmd.argument (cmd : Cmd) (k : Nat) : List (BitVec 8) :=
  ((List.range cmdmLen).map (cmd k)).takeWhile fun chr => chr != 0

/-! ## Within the bounds -/

/-- A loop that stores the characters that a reader takes off a text with a NUL. -/
structure Stores (n : Nat) (next : List (BitVec 8) → Option (BitVec 8 × List (BitVec 8)))
    (run : List (BitVec 8) → Nat → Cmd → Except Stop Scan) : Prop where
  /-- It ends when one place is left. -/
  full : ∀ b cmd, 0 ∈ b → run b (cmdmLen - 1) cmd = .ok ⟨b, cmdmLen - 1, cmd⟩
  /-- It ends when there is no character. -/
  ends : ∀ b i cmd, 0 ∈ b → next b = none → run b i cmd = .ok ⟨b, i, cmd⟩
  /-- It stores a character and goes on behind it, still in front of the NUL. -/
  item : ∀ b i cmd chr rest, 0 ∈ b → i < cmdmLen - 1 → next b = some (chr, rest) →
    run b i cmd = run rest (i + 1) (cmd.set n i chr) ∧ 0 ∈ rest

variable {b text rest chars : List (BitVec 8)} {n i k j : Nat} {cmd : Cmd} {chr : BitVec 8}

/-- A loop stores all characters that its reader reads. -/
theorem Stores.ok {next : List (BitVec 8) → Option (BitVec 8 × List (BitVec 8))}
    {run : List (BitVec 8) → Nat → Cmd → Except Stop Scan} (stores : Stores n next run)
    {room : Nat} (left : i + room = cmdmLen - 1) (ended : 0 ∈ b) :
    run b i cmd = .ok ⟨(readUpTo next room b).2, i + (readUpTo next room b).1.length,
        cmd.write n i (readUpTo next room b).1⟩ ∧
      0 ∈ (readUpTo next room b).2 := by
  induction room generalizing i b cmd with
  | zero =>
    obtain rfl : i = cmdmLen - 1 := left
    exact ⟨stores.full b cmd ended, ended⟩
  | succ room ih =>
    cases found : next b with
    | none =>
      rw [readUpTo_none found]
      exact ⟨stores.ends b i cmd ended found, ended⟩
    | some taken =>
      obtain ⟨goesOn, more⟩ := stores.item b i cmd taken.1 taken.2 ended (by omega) found
      rw [goesOn, readUpTo_some found, List.length_cons, ← Nat.add_assoc, Nat.add_right_comm]
      exact ih (by omega) more

/-- A store within the bounds. -/
theorem store_ok (row : n < margs) (column : i < cmdmLen) :
    store cmd n i chr = .ok (cmd.set n i chr) :=
  if_pos ⟨row, column⟩

/-- Behind a character in front of a NUL the NUL is still to come. -/
theorem ended_tail (ended : 0 ∈ chr :: b) (nonzero : chr ≠ 0) : 0 ∈ b :=
  (List.mem_cons.mp ended).resolve_left fun zero => nonzero zero.symm

/-- The loop over an argument without quotes stores its characters. -/
theorem unquoted_stores (row : n < margs) : Stores n plainChar (unquoted n) where
  full b cmd ended := by
    cases b with
    | nil => cases ended
    | cons chr b => exact if_neg fun more => Nat.lt_irrefl _ more.2.2
  ends b i cmd ended found := by
    cases b with
    | nil => cases ended
    | cons chr b =>
      refine if_neg fun more => ?_
      rw [plainChar, if_neg (not_or.mpr ⟨more.1, more.2.1⟩)] at found
      cases found
  item b i cmd chr rest ended column found := by
    have inside : i < cmdmLen := Nat.lt_of_lt_of_le column (by decide)
    cases b with
    | nil => cases found
    | cons first b =>
      by_cases last : first = 0 ∨ first = space
      · rw [plainChar, if_pos last] at found
        cases found
      · have plain := not_or.mp last
        rw [plainChar, if_neg last] at found
        cases found
        rw [unquoted, if_pos ⟨plain.1, plain.2, column⟩, store_ok row inside]
        exact ⟨rfl, ended_tail ended plain.1⟩

/-- The loop over a quoted argument ends. -/
theorem quoted_ends (last : ¬ (chr ≠ 0 ∧ chr ≠ doubleQuote ∧ i < cmdmLen - 1)) :
    quoted n (chr :: b) i cmd = .ok ⟨chr :: b, i, cmd⟩ := by
  rw [quoted.eq_def]
  exact if_neg last

/-- The loop over a quoted argument stores its characters. -/
theorem quoted_stores (row : n < margs) : Stores n quotedChar (quoted n) where
  full b cmd ended := by
    cases b with
    | nil => cases ended
    | cons chr b => exact quoted_ends fun more => Nat.lt_irrefl _ more.2.2
  ends b i cmd ended found := by
    cases b with
    | nil => cases ended
    | cons chr b =>
      refine quoted_ends fun more => ?_
      rw [quotedChar, if_neg (not_or.mpr ⟨more.1, more.2.1⟩)] at found
      split at found <;> cases found
  item b i cmd chr rest ended column found := by
    have inside : i < cmdmLen := Nat.lt_of_lt_of_le column (by decide)
    cases b with
    | nil => cases found
    | cons first b =>
      by_cases last : first = 0 ∨ first = doubleQuote
      · rw [quotedChar, if_pos last] at found
        cases found
      · have plain := not_or.mp last
        have later := ended_tail ended plain.1
        rw [quotedChar, if_neg last] at found
        rw [quoted.eq_def]
        dsimp only
        rw [if_pos ⟨plain.1, plain.2, column⟩]
        cases b with
        | nil => cases later
        | cons escaped b =>
          by_cases slash : first = backslash
          · rw [if_pos slash]
            dsimp only
            by_cases nonzero : escaped ≠ 0
            · rw [if_pos ⟨slash, nonzero⟩] at found
              cases found
              rw [if_pos nonzero, store_ok row inside]
              exact ⟨rfl, ended_tail later nonzero⟩
            · -- A backslash in front of the NUL stands for itself.
              rw [if_neg fun escapes => nonzero escapes.2] at found
              cases found
              rw [if_neg nonzero, store_ok row inside]
              exact ⟨rfl, later⟩
          · rw [if_neg fun escapes => slash escapes.1] at found
            cases found
            rw [if_neg slash, store_ok row inside]
            exact ⟨rfl, later⟩

/-- The loop over spaces skips them. -/
theorem skipSpaces_ok (ended : 0 ∈ b) : skipSpaces b = .ok (unspaced b) ∧ 0 ∈ unspaced b := by
  induction b with
  | nil => cases ended
  | cons chr b ih =>
    by_cases blank : chr = space
    · have skips : unspaced (chr :: b) = unspaced b := by simp [unspaced, blank]
      rw [skipSpaces, if_pos blank, skips]
      exact ih (ended_tail ended (by rw [blank]; decide))
    · have stays : unspaced (chr :: b) = chr :: b := by simp [unspaced, blank]
      rw [skipSpaces, if_neg blank, stays]
      exact ⟨rfl, ended⟩

/-- A character that may be read. -/
theorem charAt_ok (ended : 0 ∈ b) : charAt b = .ok (b.headD 0) := by
  cases b with
  | nil => cases ended
  | cons chr b => rfl

/-- A quote that is closed or missing leaves the NUL. -/
theorem ended_closed (ended : 0 ∈ b) : 0 ∈ closed b := by
  cases b with
  | nil => cases ended
  | cons chr b =>
    unfold closed
    split
    · rename_i closing
      exact ended_tail ended (by rw [show chr = doubleQuote from closing]; decide)
    · exact ended

/-- The argument at `b` is stored. -/
theorem scan_ok (row : n < margs) (ended : 0 ∈ b) :
    scan n b cmd = .ok ⟨(argumentOf b).2, (argumentOf b).1.length,
        cmd.write n 0 (argumentOf b).1⟩ ∧
      0 ∈ (argumentOf b).2 := by
  simp only [scan, charAt_ok ended, bind, Except.bind]
  by_cases opening : b.headD 0 = doubleQuote
  · have behind : 0 ∈ b.tail := by
      cases b with
      | nil => cases ended
      | cons chr b => exact ended_tail ended (by rw [show chr = doubleQuote from opening]; decide)
    obtain ⟨stored, more⟩ := @Stores.ok b.tail n 0 cmd _ _ (quoted_stores row) (cmdmLen - 1)
      (Nat.zero_add _) behind
    rw [if_pos opening, argumentOf, if_pos opening, stored]
    simp only [charAt_ok more, Nat.zero_add]
    refine ⟨?_, ended_closed more⟩
    unfold closed
    split <;> rfl
  · obtain ⟨stored, more⟩ := @Stores.ok b n 0 cmd _ _ (unquoted_stores row) (cmdmLen - 1)
      (Nat.zero_add _) ended
    rw [if_neg opening, argumentOf, if_neg opening, stored, Nat.zero_add]
    exact ⟨rfl, more⟩

/-- An argument leaves a place for the NUL behind it. -/
theorem argumentOf_length : (argumentOf text).1.length < cmdmLen := by
  unfold argumentOf
  split
  · exact Nat.lt_succ_of_le readUpTo_length_le
  · exact Nat.lt_succ_of_le readUpTo_length_le

/-- Characters that are stored behind others. -/
theorem Cmd.write_append (cmd : Cmd) (n i : Nat) (chars more : List (BitVec 8)) :
    cmd.write n i (chars ++ more) = (cmd.write n i chars).write n (i + chars.length) more := by
  induction chars generalizing cmd i with
  | nil => rfl
  | cons chr chars ih =>
    rw [List.cons_append, Cmd.write, Cmd.write, ih, List.length_cons, Nat.add_right_comm,
      Nat.add_assoc]

/-- A round of `Parse` stores the next argument and the NUL behind it. -/
theorem parseRound_ok (row : n < margs) (ended : 0 ∈ b) :
    parseRound ⟨b, n, cmd⟩ = .ok ((nextArgument b).map fun taken =>
        ⟨taken.2, n + 1, cmd.write n 0 (taken.1 ++ [0])⟩) ∧
      ∀ taken ∈ nextArgument b, 0 ∈ taken.2 := by
  obtain ⟨skips, more⟩ := skipSpaces_ok ended
  obtain ⟨stored, behind⟩ := @scan_ok (unspaced b) n cmd row more
  simp only [parseRound, charAt_ok ended, bind, Except.bind]
  by_cases last : (unspaced b).headD 0 = 0
  · have nothing : nextArgument b = none := if_pos last
    rw [nothing]
    refine ⟨?_, by simp⟩
    split
    · simp only [skips, charAt_ok more]
      rw [if_pos last]
      rfl
    · rfl
  · have found : nextArgument b = some (argumentOf (unspaced b)) := if_neg last
    have first : b.headD 0 ≠ 0 := by
      intro zero
      cases b with
      | nil => cases ended
      | cons chr b =>
        obtain rfl : chr = 0 := zero
        exact last rfl
    rw [if_pos ⟨first, row⟩, found]
    simp only [skips, charAt_ok more]
    rw [if_neg last, stored]
    simp only [store_ok row argumentOf_length]
    refine ⟨?_, by simpa using behind⟩
    rw [Option.map_some, Cmd.write_append, Nat.zero_add]
    rfl

/-- The rounds of `Parse` store the arguments, as long as there is room for them. -/
theorem parseRounds_ok {count : Nat} (room : n + count ≤ margs) (ended : 0 ∈ b) :
    parseRounds count ⟨b, n, cmd⟩ = .ok ⟨(readUpTo nextArgument count b).2,
        n + (readUpTo nextArgument count b).1.length,
        cmd.place n (readUpTo nextArgument count b).1⟩ ∧
      0 ∈ (readUpTo nextArgument count b).2 := by
  induction count generalizing n b cmd with
  | zero => exact ⟨rfl, ended⟩
  | succ count ih =>
    obtain ⟨round, behind⟩ := @parseRound_ok b n cmd (by omega) ended
    simp only [parseRounds, round, bind, Except.bind]
    cases found : nextArgument b with
    | none =>
      rw [readUpTo_none found]
      exact ⟨rfl, ended⟩
    | some taken =>
      rw [readUpTo_some found, List.length_cons, ← Nat.add_assoc, Nat.add_right_comm]
      exact ih (by omega) (behind taken found)

/-- The loop of `Parse` ends when its rounds do. -/
theorem parseLoop_ok {count fuel : Nat} {parsing last : Parsing}
    (rounds : parseRounds count parsing = .ok last) (ends : parseRound last = .ok none)
    (enough : count < fuel) : parseLoop fuel parsing = .ok last := by
  induction count generalizing fuel parsing with
  | zero =>
    cases rounds
    obtain ⟨fuel, rfl⟩ := Nat.exists_eq_succ_of_ne_zero (Nat.ne_of_gt enough)
    simp only [parseLoop, ends, bind, Except.bind]
    rfl
  | succ count ih =>
    obtain ⟨fuel, rfl⟩ := Nat.exists_eq_succ_of_ne_zero (Nat.ne_zero_of_lt enough)
    cases round : parseRound parsing with
    | error reason => simp [parseRounds, round, bind, Except.bind] at rounds
    | ok after =>
      simp only [parseRounds, round, bind, Except.bind] at rounds
      simp only [parseLoop, round, bind, Except.bind]
      cases after with
      | none => exact rounds
      | some next => exact ih rounds (Nat.lt_of_succ_lt_succ enough)

/-- The arguments that `Parse` reads from a text. -/
def arguments (text : List (BitVec 8)) : List (List (BitVec 8)) :=
  (readUpTo nextArgument margs text).1

/-- `Parse` of a text with a NUL returns the number of its arguments and stores them. -/
theorem parse_ok (ended : 0 ∈ b) :
    parse b cmd = .ok ((arguments b).length, cmd.place 0 (arguments b)) := by
  obtain ⟨rounds, more⟩ := @parseRounds_ok b 0 cmd margs (Nat.le_of_eq (Nat.zero_add _)) ended
  rw [Nat.zero_add] at rounds
  have ends : parseRound ⟨(readUpTo nextArgument margs b).2, (arguments b).length,
      cmd.place 0 (arguments b)⟩ = .ok none := by
    by_cases fewer : (arguments b).length < margs
    · rw [(parseRound_ok fewer more).1, readUpTo_fewer fewer]
      rfl
    · simp only [parseRound, charAt_ok more, bind, Except.bind, fewer, and_false]
      rfl
  simp only [parse, parseLoop_ok rounds ends (Nat.lt_succ_self _), bind, Except.bind]
  rfl

/-! ## The strings that are stored -/

/-- The characters of `cmd` after a store. -/
theorem Cmd.set_apply (cmd : Cmd) (n i : Nat) (chr : BitVec 8) (m j : Nat) :
    cmd.set n i chr m j = if m = n ∧ j = i then chr else cmd m j := by
  unfold Cmd.set
  by_cases row : m = n
  · subst row
    rw [Function.update_self, Function.update_apply]
    simp
  · rw [Function.update_of_ne row, if_neg fun here => row here.1]

/-- The characters of `cmd` after some were stored. -/
theorem Cmd.write_apply (cmd : Cmd) (n i : Nat) (chars : List (BitVec 8)) (m j : Nat) :
    cmd.write n i chars m j =
      if m = n ∧ i ≤ j then (chars[j - i]?).getD (cmd m j) else cmd m j := by
  induction chars generalizing cmd i with
  | nil => simp [Cmd.write]
  | cons chr chars ih =>
    rw [Cmd.write, ih, Cmd.set_apply]
    by_cases row : m = n
    · rcases Nat.lt_trichotomy j i with before | here | behind
      · simp [row, show ¬ i ≤ j by omega, show ¬ i + 1 ≤ j by omega, show j ≠ i by omega]
      · simp [row, here]
      · obtain ⟨later, rfl⟩ : ∃ later, j = i + 1 + later := ⟨j - (i + 1), by omega⟩
        have index : i + 1 + later - i = later + 1 := by omega
        simp [row, index, show i ≤ i + 1 + later by omega, show i + 1 + later ≠ i by omega]
    · simp [row]

/-- The strings in front of some arguments are left as they are. -/
theorem Cmd.place_front (cmd : Cmd) (args : List (List (BitVec 8))) {m : Nat} (front : m < n) :
    cmd.place n args m = cmd m := by
  induction args generalizing cmd n with
  | nil => rfl
  | cons chars args ih =>
    rw [Cmd.place, ih _ (Nat.lt_succ_of_lt front)]
    funext j
    rw [Cmd.write_apply, if_neg fun here => Nat.ne_of_lt front here.1]

/-- The characters of `cmd` after arguments were stored. -/
theorem Cmd.place_apply (cmd : Cmd) (args : List (List (BitVec 8))) (n k j : Nat) :
    cmd.place n args (n + k) j =
      ((args[k]?).bind fun chars => (chars ++ [0])[j]?).getD (cmd (n + k) j) := by
  induction args generalizing cmd n k with
  | nil => simp [Cmd.place]
  | cons chars args ih =>
    cases k with
    | zero =>
      have front := Cmd.place_front (cmd.write n 0 (chars ++ [0])) args (Nat.lt_add_one n)
      show (cmd.write n 0 (chars ++ [0])).place (n + 1) args n j = _
      rw [front, Cmd.write_apply]
      simp
    | succ k =>
      rw [Cmd.place, show n + (k + 1) = n + 1 + k by omega, ih, Cmd.write_apply,
        if_neg fun here => absurd here.1 (by omega)]
      simp

/-- The characters of `cmd` after all arguments were stored. -/
theorem Cmd.placed (cmd : Cmd) (args : List (List (BitVec 8))) (k j : Nat) :
    cmd.place 0 args k j = ((args[k]?).bind fun chars => (chars ++ [0])[j]?).getD (cmd k j) := by
  have row := cmd.place_apply args 0 k j
  rwa [Nat.zero_add] at row

/-- Every argument leaves a place for the NUL behind it. -/
theorem arguments_short : ∀ chars ∈ arguments text, chars.length < cmdmLen := by
  refine readUpTo_items fun text chars rest found => ?_
  unfold nextArgument at found
  split at found
  · cases found
  · have same := congrArg Prod.fst (Option.some.inj found)
    rw [← show (argumentOf (unspaced text)).1 = chars from same]
    exact argumentOf_length

/-- A string without a NUL is read back from where it was stored. -/
theorem argument_place {args : List (List (BitVec 8))} (inside : args[k]? = some chars)
    (short : chars.length < cmdmLen) (plain : 0 ∉ chars) :
    (cmd.place 0 args).argument k = chars := by
  obtain ⟨left, room⟩ : ∃ left, cmdmLen = chars.length + 1 + left :=
    ⟨cmdmLen - (chars.length + 1), by omega⟩
  have front : (List.range (chars.length + 1)).map (cmd.place 0 args k) = chars ++ [0] := by
    refine List.ext_getElem (by simp) fun j small _ => ?_
    rw [List.getElem_map, List.getElem_range, Cmd.placed, inside, Option.bind_some,
      List.getElem?_eq_getElem (by simpa using small)]
    rfl
  unfold Cmd.argument
  rw [room, List.range_add, List.map_append, front, List.append_assoc, List.takeWhile_append_of_pos]
  · simp
  · intro chr member
    have nonzero : chr ≠ 0 := fun zero => plain (zero ▸ member)
    simpa using nonzero

/-- **Bounds.** `Parse` returns on every string, without a read behind its NUL or a store outside of
`cmd`: it returns at most `MARGS`, and so many strings in `cmd` have their NUL. -/
theorem parse_within_bounds (text : List (BitVec 8)) (cmd : Cmd) :
    ∃ n after, parse (text ++ [0]) cmd = .ok (n, after) ∧ n ≤ margs ∧
      (∀ k < n, ∃ j < cmdmLen, after k j = 0) ∧
      ∀ k j, ¬ (k < margs ∧ j < cmdmLen) → after k j = cmd k j := by
  refine ⟨_, _, parse_ok (by simp), readUpTo_length_le, fun k less => ?_, fun k j outside => ?_⟩
  · have short := arguments_short _ (List.getElem_mem less)
    refine ⟨_, short, ?_⟩
    rw [Cmd.placed, List.getElem?_eq_getElem less]
    simp
  · rw [Cmd.placed]
    cases inside : (arguments (text ++ [0]))[k]? with
    | none => rfl
    | some chars =>
      obtain ⟨less, rfl⟩ := List.getElem?_eq_some_iff.mp inside
      have row : k < margs := Nat.lt_of_lt_of_le less readUpTo_length_le
      have short := arguments_short _ (List.getElem_mem less)
      have column : ¬ j < cmdmLen := fun column => outside ⟨row, column⟩
      have behind : ((arguments (text ++ [0]))[k] ++ [0]).length ≤ j := by
        rw [List.length_append, List.length_singleton]
        omega
      rw [Option.bind_some, List.getElem?_eq_none behind]
      rfl

end Unarddeg.Shell
