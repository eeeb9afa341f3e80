import Unarddeg.Modules.Shell.Parse

/-!
# Quoted arguments

What a command line has to look like so that `Parse` gets a list of arguments back: each one between
quotes, with a backslash in front of every quote and every backslash in it.
-/

namespace Unarddeg.Shell

open Library

/-- What is written for a character of a quoted argument. -/
def escape (chr : BitVec 8) : List (BitVec 8) :=
  if chr = doubleQuote ∨ chr = backslash then [backslash, chr] else [chr]

/-- What is written for an argument. -/
def inQuotes (chars : List (BitVec 8)) : List (BitVec 8) :=
  doubleQuote :: (chars.flatMap escape ++ [doubleQuote])

/-- What is written for some arguments. -/
def commandLine (args : List (List (BitVec 8))) : List (BitVec 8) :=
  [space].intercalate (args.map inQuotes)

variable {text rest chars : List (BitVec 8)} {args : List (List (BitVec 8))} {chr : BitVec 8}

/-- A character is read back from what is written for it. -/
theorem quotedChar_escape (nonzero : chr ≠ 0) (rest : List (BitVec 8)) :
    quotedChar (escape chr ++ rest) = some (chr, rest) := by
  unfold escape
  by_cases escaped : chr = doubleQuote ∨ chr = backslash
  · have self : unescaped chr = chr := by
      rcases escaped with rfl | rfl
      · rfl
      · rfl
    rw [if_pos escaped]
    show (if backslash = 0 ∨ backslash = doubleQuote then none
      else if backslash = backslash ∧ chr ≠ 0 then some (unescaped chr, rest)
      else some (backslash, chr :: rest)) = _
    rw [if_neg (by decide), if_pos ⟨rfl, nonzero⟩, self]
  · have plain := not_or.mp escaped
    rw [if_neg escaped, List.singleton_append, quotedChar,
      if_neg (not_or.mpr ⟨nonzero, plain.1⟩), if_neg fun slash => plain.2 slash.1]

/-- An argument is read back from what is written for it. -/
theorem argumentOf_inQuotes (short : chars.length < cmdmLen) (plain : 0 ∉ chars)
    (rest : List (BitVec 8)) : argumentOf (inQuotes chars ++ rest) = (chars, rest) := by
  have reads : Reads quotedChar (chars.flatMap escape ++ doubleQuote :: rest) chars
      (doubleQuote :: rest) :=
    reads_flatMap (fun chr member => quotedChar_escape fun zero => plain (zero ▸ member)) _
  have all := reads.readUpTo_none rfl (Nat.le_of_lt_succ short : chars.length ≤ cmdmLen - 1)
  have opened : inQuotes chars ++ rest =
      doubleQuote :: (chars.flatMap escape ++ doubleQuote :: rest) := by
    simp [inQuotes]
  rw [opened, argumentOf, if_pos (show (doubleQuote :: _).headD 0 = doubleQuote from rfl),
    List.tail_cons, all]
  rfl

/-- The next argument is the one that is written first. -/
theorem nextArgument_inQuotes (short : chars.length < cmdmLen) (plain : 0 ∉ chars)
    (rest : List (BitVec 8)) : nextArgument (inQuotes chars ++ rest) = some (chars, rest) := by
  have begins : unspaced (inQuotes chars ++ rest) = inQuotes chars ++ rest := rfl
  rw [nextArgument, begins, if_neg (by simp [inQuotes, doubleQuote]),
    argumentOf_inQuotes short plain]

/-- A space in front of an argument changes nothing. -/
theorem nextArgument_space (text : List (BitVec 8)) :
    nextArgument (space :: text) = nextArgument text := rfl

/-- The arguments are read back from what is written for them. -/
theorem reads_commandLine (each : ∀ chars ∈ args, chars.length < cmdmLen ∧ 0 ∉ chars) :
    Reads nextArgument (commandLine args ++ rest) args rest := by
  induction args with
  | nil => exact .nothing rest
  | cons chars args ih =>
    obtain ⟨first, others⟩ := List.forall_mem_cons.mp each
    have next := nextArgument_inQuotes first.1 first.2
    cases args with
    | nil =>
      have single : commandLine [chars] = inQuotes chars := List.intercalate_singleton
      rw [single]
      exact .item (next rest) (.nothing rest)
    | cons second args =>
      have split : commandLine (chars :: second :: args) ++ rest =
          inQuotes chars ++ space :: (commandLine (second :: args) ++ rest) := by
        simp [commandLine]
      rw [split]
      refine .item (next _) ?_
      cases ih others with
      | item found later => exact .item ((nextArgument_space _).trans found) later

/-- **Quoting.** Arguments that fit in `cmd` are what `Parse` returns for the line that is written
for them. -/
theorem parse_commandLine (args : List (List (BitVec 8))) (few : args.length ≤ margs)
    (each : ∀ chars ∈ args, chars.length < cmdmLen ∧ 0 ∉ chars) (cmd : Cmd) :
    ∃ after, parse (commandLine args ++ [0]) cmd = .ok (args.length, after) ∧
      (List.range args.length).map after.argument = args := by
  have all : arguments (commandLine args ++ [0]) = args :=
    congrArg Prod.fst ((reads_commandLine each).readUpTo_none rfl few)
  have parsed := @parse_ok (commandLine args ++ [0]) cmd (by simp)
  rw [all] at parsed
  refine ⟨_, parsed, ?_⟩
  refine List.ext_getElem (by simp) fun k _ inside => ?_
  obtain ⟨short, plain⟩ := each _ (List.getElem_mem inside)
  rw [List.getElem_map, List.getElem_range]
  exact argument_place (List.getElem?_eq_getElem inside) short plain

/-- The empty argument and one of a quote, a backslash, a space and a letter. -/
theorem parse_commandLine_sample :
    ∃ after, parse (commandLine [[], [34, 92, 32, 110]] ++ [0]) (fun _ _ => 0) = .ok (2, after) ∧
      (List.range 2).map after.argument = [[], [34, 92, 32, 110]] :=
  parse_commandLine [[], [34, 92, 32, 110]] (by decide) (by decide) _

end Unarddeg.Shell
