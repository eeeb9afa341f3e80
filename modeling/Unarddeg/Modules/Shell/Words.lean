import Unarddeg.Modules.Shell.Parse

/-!
# The words of a command

A line without quotes, word by word. `Parse` stops in a word that does not fit in an argument, and
goes on with the rest of the word as the next argument.
-/

namespace Unarddeg.Shell

open Library

/-- The words of a line. -/
def words (line : List (BitVec 8)) : List (List (BitVec 8)) :=
  (line.splitOn space).filter fun word => !word.isEmpty

/-- The first word of a line. -/
def firstWord (line : List (BitVec 8)) : List (BitVec 8) :=
  (unspaced line).takeWhile fun chr => chr != space

/-- A line behind its first word. -/
def behindWord (line : List (BitVec 8)) : List (BitVec 8) :=
  (unspaced line).dropWhile fun chr => chr != space

/-- A line behind some of its words. -/
def behindWords : Nat → List (BitVec 8) → List (BitVec 8)
  | 0, line => line
  | k + 1, line => behindWords k (behindWord line)

/-- No character of a line ends it or is a quote. -/
def Plain (line : List (BitVec 8)) : Prop :=
  ∀ chr ∈ line, chr ≠ 0 ∧ chr ≠ doubleQuote

/-- For a line `Parse` returns the number of its words, or `MARGS`, and each argument is one word:
it is read from where the word begins, and it is the word as far as it fits. -/
def WordByWord (line : List (BitVec 8)) (cmd : Cmd) : Prop :=
  ∃ n after, parse (line ++ [0]) cmd = .ok (n, after) ∧ n = min margs (words line).length ∧
    ∀ k < n,
      (∃ begins, parseRounds k ⟨line ++ [0], 0, cmd⟩ = .ok begins ∧
        unspaced begins.b = unspaced (behindWords k line) ++ [0]) ∧
      (words line)[k]?.map (List.take (cmdmLen - 1)) = some (after.argument k)

variable {line word rest : List (BitVec 8)} {k count : Nat}

/-- A space in front of a line is no part of a word. -/
theorem words_space (line : List (BitVec 8)) : words (space :: line) = words line := by
  have front : (space :: line).splitOn space = [] :: line.splitOn space :=
    List.splitOn_append_cons_self_of_not_mem List.not_mem_nil line
  rw [words, front, List.filter_cons_of_neg (by decide)]
  rfl

/-- The words of a line without the spaces with which it begins. -/
theorem words_unspaced (line : List (BitVec 8)) : words (unspaced line) = words line := by
  induction line with
  | nil => rfl
  | cons chr line ih =>
    by_cases blank : chr = space
    · rw [blank, words_space, ← ih]
      rfl
    · have stays : unspaced (chr :: line) = chr :: line := by simp [unspaced, blank]
      rw [stays]

/-- A word in front of a space is the first one. -/
theorem words_append (nonempty : word ≠ []) (plain : space ∉ word)
    (apart : rest = [] ∨ ∃ more, rest = space :: more) :
    words (word ++ rest) = word :: words rest := by
  have kept : ¬ word.isEmpty = true := fun empty => nonempty (List.isEmpty_iff.mp empty)
  rcases apart with rfl | ⟨more, rfl⟩
  · rw [List.append_nil, words, List.splitOn_eq_singleton plain]
    simp [kept, words]
  · rw [words_space, words, List.splitOn_append_cons_self_of_not_mem plain]
    simp [kept, words]

/-- Behind its spaces a line that has a word begins with it. -/
theorem unspaced_eq (line : List (BitVec 8)) :
    unspaced line = firstWord line ++ behindWord line :=
  List.takeWhile_append_dropWhile.symm

/-- A word has no space. -/
theorem space_notMem_firstWord (line : List (BitVec 8)) : space ∉ firstWord line := by
  intro member
  have plain := List.mem_takeWhile_imp member
  simp at plain

/-- A line that has a character behind its spaces has a first word. -/
theorem firstWord_ne_nil (more : unspaced line ≠ []) : firstWord line ≠ [] := by
  have first := List.head?_dropWhile_not (fun chr => chr == space) line
  rw [show line.dropWhile (fun chr => chr == space) = unspaced line from rfl] at first
  unfold firstWord
  cases begins : unspaced line with
  | nil => exact absurd begins more
  | cons chr rest =>
    have nonspace : (chr == space) = false := by rwa [begins] at first
    have kept : (chr != space) = true := by rw [bne, nonspace]; rfl
    simp [kept]

/-- Behind its first word a line ends, or there is a space. -/
theorem behindWord_apart (line : List (BitVec 8)) :
    behindWord line = [] ∨ ∃ more, behindWord line = space :: more := by
  have first := List.head?_dropWhile_not (fun chr => chr != space) (unspaced line)
  rw [show (unspaced line).dropWhile (fun chr => chr != space) = behindWord line from rfl] at first
  cases begins : behindWord line with
  | nil => exact .inl rfl
  | cons chr more =>
    have blank : (chr != space) = false := by rwa [begins] at first
    exact .inr ⟨more, by rw [show chr = space by simpa using blank]⟩

/-- A line without characters behind its spaces has no words. -/
theorem words_eq_nil (none : unspaced line = []) : words line = [] := by
  rw [← words_unspaced, none]
  rfl

/-- The words of a line are the first one and those behind it. -/
theorem words_eq_cons (more : unspaced line ≠ []) :
    words line = firstWord line :: words (behindWord line) := by
  rw [← words_unspaced, unspaced_eq]
  exact words_append (firstWord_ne_nil more) (space_notMem_firstWord line) (behindWord_apart line)

/-- What is behind spaces is a part of a line. -/
theorem Plain.unspaced (plain : Plain line) : Plain (unspaced line) := fun chr member =>
  plain chr ((List.dropWhile_sublist _).subset member)

/-- A word is a part of its line. -/
theorem Plain.firstWord (plain : Plain line) : Plain (firstWord line) := fun chr member =>
  plain.unspaced chr ((List.takeWhile_sublist _).subset member)

/-- What is behind a word is a part of its line. -/
theorem Plain.behindWord (plain : Plain line) : Plain (behindWord line) := fun chr member =>
  plain.unspaced chr ((List.dropWhile_sublist _).subset member)

/-- The spaces in front of a line that has a word. -/
theorem unspaced_append (rest : List (BitVec 8)) (more : unspaced line ≠ []) :
    unspaced (line ++ rest) = unspaced line ++ rest := by
  have nonempty : ¬ (line.dropWhile fun chr => chr == space).isEmpty = true := fun empty =>
    more (List.isEmpty_iff.mp empty)
  rw [unspaced, List.dropWhile_append, if_neg nonempty]
  rfl

/-- The spaces in front of the NUL. -/
theorem unspaced_nul (line : List (BitVec 8)) : unspaced (line ++ [0]) = unspaced line ++ [0] := by
  by_cases none : unspaced line = []
  · rw [unspaced, List.dropWhile_append, none,
      if_pos (List.isEmpty_iff.mpr (show line.dropWhile _ = [] from none))]
    rfl
  · exact unspaced_append [0] none

/-- In front of a word there is no space. -/
theorem unspaced_word (nonempty : word ≠ []) (plain : space ∉ word) (rest : List (BitVec 8)) :
    unspaced (word ++ rest) = word ++ rest := by
  cases word with
  | nil => exact absurd rfl nonempty
  | cons chr word =>
    have nonspace : chr ≠ space := fun blank => plain (List.mem_cons.mpr (.inl blank.symm))
    simp [unspaced, nonspace]

/-- Characters of a word are read one after the other. -/
theorem reads_word (plain : Plain word) (nonspace : space ∉ word) (rest : List (BitVec 8)) :
    Reads plainChar (word ++ rest) word rest := by
  have reads := @reads_flatMap _ _ plainChar (fun chr => [chr]) word (fun chr member rest => by
    have nonzero := (plain chr member).1
    have apart : chr ≠ space := fun blank => nonspace (blank ▸ member)
    rw [List.singleton_append, plainChar, if_neg (not_or.mpr ⟨nonzero, apart⟩)]) rest
  rwa [List.flatMap_singleton'] at reads

/-- As much of a word is read as fits. -/
theorem readUpTo_word (plain : Plain word) (nonspace : space ∉ word)
    (ends : plainChar rest = none) :
    readUpTo plainChar count (word ++ rest) = (word.take count, word.drop count ++ rest) := by
  by_cases fits : word.length ≤ count
  · rw [(reads_word plain nonspace rest).readUpTo_none ends fits, List.take_of_length_le fits,
      List.drop_of_length_le fits, List.nil_append]
  · have front := @reads_word (word.take count)
      (fun chr member => plain chr (List.mem_of_mem_take member))
      (fun member => nonspace (List.mem_of_mem_take member)) (word.drop count ++ rest)
    have read := front.readUpTo_length
    rwa [← List.append_assoc, List.take_append_drop,
      List.length_take_of_le (Nat.le_of_not_le fits)] at read

/-- A line without words has no argument. -/
theorem nextArgument_nul (none : unspaced line = []) : nextArgument (line ++ [0]) = .none := by
  rw [nextArgument, unspaced_nul, none]
  rfl

/-- The next argument of a line is its first word, as far as it fits. -/
theorem nextArgument_word (plain : Plain line) (more : unspaced line ≠ []) :
    nextArgument (line ++ [0]) = some ((firstWord line).take (cmdmLen - 1),
      ((firstWord line).drop (cmdmLen - 1) ++ behindWord line) ++ [0]) := by
  have ends : plainChar (behindWord line ++ [0]) = none := by
    rcases behindWord_apart line with empty | ⟨rest, blank⟩
    · rw [empty]
      rfl
    · rw [blank]
      rfl
  obtain ⟨chr, rest, begins⟩ := List.exists_cons_of_ne_nil more
  obtain ⟨nonzero, nonquote⟩ := plain.unspaced chr (begins ▸ List.mem_cons_self)
  have first : (unspaced line ++ [0]).headD 0 = chr := by rw [begins]; rfl
  rw [nextArgument, unspaced_nul, first, if_neg nonzero, argumentOf, first, if_neg nonquote,
    unspaced_eq, List.append_assoc,
    readUpTo_word plain.firstWord (space_notMem_firstWord line) ends, List.append_assoc]

/-- The words behind some of them. -/
theorem words_behindWords (k : Nat) (line : List (BitVec 8)) :
    words (behindWords k line) = (words line).drop k := by
  induction k generalizing line with
  | zero => rfl
  | succ k ih =>
    rw [behindWords, ih]
    by_cases none : unspaced line = []
    · have empty : behindWord line = [] := by rw [behindWord, none]; rfl
      rw [empty, words_eq_nil none, words_eq_nil rfl, List.drop_nil, List.drop_nil]
    · rw [words_eq_cons none, List.drop_succ_cons]

/-- A line behind one word more. -/
theorem behindWords_succ (k : Nat) (line : List (BitVec 8)) :
    behindWords (k + 1) line = behindWord (behindWords k line) := by
  induction k generalizing line with
  | zero => rfl
  | succ k ih => exact ih (behindWord line)

/-- What is behind some words is a part of their line. -/
theorem Plain.behindWords (plain : Plain line) : Plain (behindWords k line) := by
  induction k generalizing line with
  | zero => exact plain
  | succ k ih => exact ih plain.behindWord

/-- A line has a word behind some others, or it does not have so many. -/
theorem unspaced_behindWords (less : k < (words line).length) :
    unspaced (behindWords k line) ≠ [] := by
  intro none
  have left := words_behindWords k line
  rw [words_eq_nil none] at left
  exact absurd (List.drop_eq_nil_iff.mp left.symm) (Nat.not_le_of_lt less)

/-- The next word behind some others. -/
theorem firstWord_behindWords (less : k < (words line).length) :
    firstWord (behindWords k line) = (words line)[k] := by
  have next := words_behindWords k line
  rw [words_eq_cons (unspaced_behindWords less), List.drop_eq_getElem_cons less] at next
  exact (List.cons.inj next).1

/-- Words that fit are read one after the other. -/
theorem reads_words (plain : Plain line) (inside : k ≤ (words line).length)
    (short : ∀ word ∈ (words line).take k, word.length < cmdmLen) :
    Reads nextArgument (line ++ [0]) ((words line).take k) (behindWords k line ++ [0]) := by
  induction k generalizing line with
  | zero => exact .nothing _
  | succ k ih =>
    have more : unspaced line ≠ [] := fun none => by
      rw [words_eq_nil none] at inside
      exact absurd inside (Nat.not_succ_le_zero k)
    rw [words_eq_cons more] at inside short ⊢
    obtain ⟨first, others⟩ := List.forall_mem_cons.mp short
    have next := nextArgument_word plain more
    have fits : (firstWord line).length ≤ cmdmLen - 1 := Nat.le_of_lt_succ first
    rw [List.take_of_length_le fits, List.drop_of_length_le fits, List.nil_append] at next
    exact .item next (ih plain.behindWord (Nat.le_of_succ_le_succ inside) others)

/-- The text that is left behind words that fit. -/
theorem readUpTo_words (plain : Plain line) (inside : k ≤ (words line).length)
    (short : ∀ word ∈ (words line).take k, word.length < cmdmLen) :
    (readUpTo nextArgument k (line ++ [0])).2 = behindWords k line ++ [0] := by
  have read := (reads_words plain inside short).readUpTo_length
  rw [List.length_take_of_le inside] at read
  rw [read]

/-- There are as many arguments as words, if the words that others follow fit. -/
theorem arguments_length (plain : Plain line)
    (short : ∀ word ∈ (words line).take (margs - 1), word.length < cmdmLen) :
    (arguments (line ++ [0])).length = min margs (words line).length := by
  by_cases few : (words line).length < margs
  · have all : (words line).take (margs - 1) = words line :=
      List.take_of_length_le (Nat.le_of_lt_succ few)
    have inside := Nat.le_refl (words line).length
    rw [all, ← List.take_length (l := words line)] at short
    have reads := reads_words plain inside short
    have none : unspaced (behindWords (words line).length line) = [] := by
      by_contra more
      have next := words_behindWords (words line).length line
      rw [words_eq_cons more, List.drop_length] at next
      cases next
    rw [List.take_length] at reads
    rw [arguments, reads.readUpTo_none (nextArgument_nul none) (Nat.le_of_lt few)]
    exact (Nat.min_eq_right (Nat.le_of_lt few)).symm
  · have last : margs - 1 < (words line).length :=
      Nat.lt_of_lt_of_le (by decide) (Nat.le_of_not_lt few)
    have text := readUpTo_words plain (Nat.le_of_lt last) short
    have next := nextArgument_word plain.behindWords (unspaced_behindWords last)
    have more : margs - 1 < (arguments (line ++ [0])).length :=
      readUpTo_more (by rw [text, next]; exact Option.some_ne_none _) (by decide)
    rw [Nat.min_eq_left (Nat.le_of_not_lt few)]
    exact Nat.le_antisymm readUpTo_length_le more

/-- A line from a word on whose first characters were read. -/
def leftover (line : List (BitVec 8)) (k : Nat) : List (BitVec 8) :=
  (firstWord (behindWords k line)).drop (cmdmLen - 1) ++ behindWords (k + 1) line

/-- Behind words that fit the next one is read as far as it fits, and then what is left of it. -/
theorem readUpTo_nextWord (plain : Plain line) (less : k < (words line).length)
    (short : ∀ word ∈ (words line).take k, word.length < cmdmLen) (more : Nat) :
    readUpTo nextArgument (k + (more + 1)) (line ++ [0]) =
      ((words line).take k ++ (words line)[k].take (cmdmLen - 1) ::
          (readUpTo nextArgument more (leftover line k ++ [0])).1,
        (readUpTo nextArgument more (leftover line k ++ [0])).2) := by
  have read := (reads_words plain (Nat.le_of_lt less) short).readUpTo (more + 1)
  have next := nextArgument_word plain.behindWords (unspaced_behindWords less)
  rw [← behindWords_succ] at next
  rw [List.length_take_of_le (Nat.le_of_lt less), readUpTo_some next] at read
  rw [read, leftover, firstWord_behindWords less]

/-- Behind words that fit an argument is the next word, as far as it fits. -/
theorem arguments_getElem? (plain : Plain line) (less : k < (words line).length)
    (short : ∀ word ∈ (words line).take k, word.length < cmdmLen) (room : k < margs) :
    (arguments (line ++ [0]))[k]? = some ((words line)[k].take (cmdmLen - 1)) := by
  obtain ⟨left, rest⟩ : ∃ left, margs = k + (left + 1) := ⟨margs - k - 1, by omega⟩
  have length := List.length_take_of_le (Nat.le_of_lt less)
  rw [arguments, rest, readUpTo_nextWord plain less short,
    List.getElem?_append_right (Nat.le_of_eq length), length, Nat.sub_self]
  rfl

/-- What is left of a word that does not fit has no space in front of it. -/
theorem unspaced_leftover (less : k < (words line).length)
    (long : ¬ (words line)[k].length < cmdmLen) :
    unspaced (leftover line k) = leftover line k ∧
      (behindWords (k + 1) line).length < (leftover line k).length := by
  rw [← firstWord_behindWords less] at long
  have nonempty : (firstWord (behindWords k line)).drop (cmdmLen - 1) ≠ [] := fun empty =>
    long (Nat.lt_succ_of_le (List.drop_eq_nil_iff.mp empty))
  have nonspace : space ∉ (firstWord (behindWords k line)).drop (cmdmLen - 1) := fun blank =>
    space_notMem_firstWord _ (List.mem_of_mem_drop blank)
  have positive := List.length_pos_of_ne_nil nonempty
  refine ⟨unspaced_word nonempty nonspace _, ?_⟩
  rw [leftover, List.length_append]
  omega

/-- What is left of a line is a part of it. -/
theorem Plain.leftover (plain : Plain line) : Plain (leftover line k) := by
  intro chr member
  rcases List.mem_append.mp member with inside | behind
  · exact plain.behindWords.firstWord chr (List.mem_of_mem_drop inside)
  · exact plain.behindWords chr behind

/-- No argument begins where the word behind one that does not fit does. -/
theorem not_wordByWord {cmd : Cmd} (plain : Plain line) (less : k < (words line).length)
    (short : ∀ word ∈ (words line).take k, word.length < cmdmLen) (room : k + 1 < margs)
    (long : ¬ (words line)[k].length < cmdmLen) : ¬ WordByWord line cmd := by
  obtain ⟨begins, longer⟩ := unspaced_leftover less long
  have text : (readUpTo nextArgument (k + 1) (line ++ [0])).2 = leftover line k ++ [0] :=
    congrArg Prod.snd (readUpTo_nextWord plain less short 0)
  have nonempty : unspaced (leftover line k) ≠ [] := by
    rw [begins]
    exact List.ne_nil_of_length_pos (Nat.lt_of_le_of_lt (Nat.zero_le _) longer)
  -- So what is left of the word is the next argument.
  have more : k + 1 < (arguments (line ++ [0])).length := by
    refine readUpTo_more ?_ room
    rw [text, nextArgument_word plain.leftover nonempty]
    exact Option.some_ne_none _
  rintro ⟨n, after, parsed, _, each⟩
  rw [parse_ok (by simp)] at parsed
  cases parsed
  obtain ⟨⟨reached, rounds, here⟩, _⟩ := each (k + 1) more
  rw [(parseRounds_ok (by omega) (by simp)).1] at rounds
  cases rounds
  have lengths := congrArg List.length here
  rw [text, unspaced_nul, begins, List.length_append, List.length_append] at lengths
  have shorter : (unspaced (behindWords (k + 1) line)).length ≤ _ :=
    (List.dropWhile_sublist _).length_le
  omega

/-- **Words.** A line without quotes is read word by word exactly when each of its first words, but
for the last one that `cmd` has room for, fits in an argument. -/
theorem wordByWord_iff (line : List (BitVec 8)) (plain : Plain line) (cmd : Cmd) :
    WordByWord line cmd ↔
      ∀ word ∈ (words line).take (margs - 1), word.length < cmdmLen := by
  constructor
  · intro each
    have first : ∀ k ≤ margs - 1, ∀ word ∈ (words line).take k, word.length < cmdmLen := by
      intro k
      induction k with
      | zero => simp
      | succ k ih =>
        intro room word member
        have short := ih (Nat.le_of_succ_le room)
        by_cases less : k < (words line).length
        · rw [List.take_succ_eq_append_getElem less, List.mem_append, List.mem_singleton] at member
          rcases member with front | rfl
          · exact short word front
          · by_contra long
            exact not_wordByWord plain less short (Nat.lt_of_le_of_lt room (by decide)) long each
        · rw [List.take_of_length_le (by omega)] at member
          exact short word (by rwa [List.take_of_length_le (by omega)])
    exact first _ (Nat.le_refl _)
  · intro short
    have length := arguments_length plain short
    refine ⟨_, _, parse_ok (by simp), length, fun k inside => ?_⟩
    have bounds : k < margs ∧ k < (words line).length := by omega
    have front : ∀ word ∈ (words line).take k, word.length < cmdmLen := fun word member =>
      short word (List.take_subset_take_left _ (Nat.le_pred_of_lt bounds.1) member)
    refine ⟨⟨_, (parseRounds_ok (by omega) (by simp)).1, ?_⟩, ?_⟩
    · rw [← unspaced_nul]
      exact congrArg unspaced (readUpTo_words plain (Nat.le_of_lt bounds.2) front)
    · have found := arguments_getElem? plain bounds.2 front bounds.1
      have fits : ((words line)[k].take (cmdmLen - 1)).length < cmdmLen :=
        Nat.lt_succ_of_le (List.length_take_le _ _)
      have nonzero : 0 ∉ (words line)[k].take (cmdmLen - 1) := by
        rw [← firstWord_behindWords bounds.2]
        exact fun zero => (plain.behindWords.firstWord 0 (List.mem_of_mem_take zero)).1 rfl
      rw [argument_place found fits nonzero, List.getElem?_eq_getElem bounds.2]
      rfl

/-- The line of two words `cd` and `mnt`. -/
theorem wordByWord_iff_sample :
    WordByWord [99, 100, 32, 109, 110, 116] (fun _ _ => 0) ↔
      ∀ word ∈ (words [99, 100, 32, 109, 110, 116]).take (margs - 1), word.length < cmdmLen :=
  wordByWord_iff [99, 100, 32, 109, 110, 116] (by unfold Plain; decide) _

/-- A word of 64 letters is two arguments. -/
theorem word_split :
    ¬ ∀ (line : List (BitVec 8)) (cmd : Cmd), Plain line → WordByWord line cmd := by
  intro each
  have plain : Plain (List.replicate cmdmLen 97) := by
    unfold Plain
    decide
  obtain ⟨n, after, parsed, counted, _⟩ := each _ (fun _ _ => 0) plain
  rw [parse_ok (by simp)] at parsed
  cases parsed
  exact absurd counted (by decide +kernel)

end Unarddeg.Shell
