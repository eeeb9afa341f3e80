import Unarddeg.Modules.Keyboard

/-!
# The modifier keys

`shifted` and `ctrl` of `modules/ps2/main.c` against the keys that are held down. A key of a
keyboard with scancode set 1 sends its make code when it goes down and the same code with bit 7 when
it goes up; the keys that came later send `0xE0` in front, with codes that older keys have too.
`ps2_keyboard_fetch` skips the prefix.
-/

namespace Unarddeg

/-! ## Keys -/

/-- A key. -/
structure PhysicalKey where
  /-- Whether its codes come behind `0xE0`. -/
  extended : Bool
  /-- Its make code. -/
  code : BitVec 7
  deriving DecidableEq

/-- The left shift key. -/
def leftShift : PhysicalKey := ⟨false, 0x2a⟩

/-- The right shift key. -/
def rightShift : PhysicalKey := ⟨false, 0x36⟩

/-- The left control key. -/
def leftCtrl : PhysicalKey := ⟨false, 0x1d⟩

/-- A key goes down or up. -/
structure KeyEvent where
  /-- The key. -/
  key : PhysicalKey
  /-- Whether it goes down. -/
  pressed : Bool

/-- The bytes that the keyboard sends. -/
def KeyEvent.bytes (event : KeyEvent) : List (BitVec 8) :=
  (if event.key.extended then [0xe0] else []) ++
    [if event.pressed then event.key.code.setWidth 8 else event.key.code.setWidth 8 ||| 0x80]

/-- The keys that are held down after another event. -/
def KeyEvent.apply (held : Finset PhysicalKey) (event : KeyEvent) : Finset PhysicalKey :=
  if event.pressed then insert event.key held else held.erase event.key

/-- The keys that are held down after some events. -/
def heldAfter (events : List KeyEvent) : Finset PhysicalKey := events.foldl KeyEvent.apply ∅

/-- Each key goes down and up in turn, beginning with the keys that are held down. -/
def Alternates (held : Finset PhysicalKey) : List KeyEvent → Prop
  | [] => True
  | event :: events => (event.pressed ↔ event.key ∉ held) ∧ Alternates (event.apply held) events

/-! ## The driver -/

/-- The byte of the keyboard that a poll delivers. -/
def keyboardByte (poll : Poll) : Option (BitVec 8) :=
  if poll.ready &&& 1 ≠ 0 ∧ poll.status &&& 32 = 0 then some poll.data else none

/-- The variables of the driver after calls of `ps2_keyboard_fetch`. -/
def keyboardAfter (keyboard : Keyboard) (polls : List Poll) : Keyboard :=
  polls.foldl (fun keyboard poll => (ps2KeyboardFetch keyboard poll).2) keyboard

/-- The character of a key, from the table for the keys that are held down. -/
def characterOf (held : Finset PhysicalKey) (scancode : BitVec 8) : BitVec 8 :=
  let map := if leftShift ∈ held ∨ rightShift ∈ held then keyboardMapShifted else keyboardMap
  let key := map.getD scancode.toNat 0
  if leftCtrl ∈ held then controlled key else key

/-- The scancode of a key that goes down and is neither a shift key nor a control key. -/
def IsPlain (scancode : BitVec 8) : Prop :=
  scancode &&& 0x80 = 0 ∧ scancode ≠ 0x2a ∧ scancode ≠ 0x36 ∧ scancode ≠ 0x1d

/-- The driver knows the modifier keys that are held down, and returns the characters for them. -/
structure Follows (keyboard : Keyboard) (held : Finset PhysicalKey) : Prop where
  /-- A shift key is held down. -/
  shifted : keyboard.shifted ↔ leftShift ∈ held ∨ rightShift ∈ held
  /-- The left control key is held down. -/
  ctrl : keyboard.ctrl ↔ leftCtrl ∈ held
  /-- The character of every other key. -/
  characters : ∀ poll scancode, keyboardByte poll = some scancode → IsPlain scancode →
    (ps2KeyboardFetch keyboard poll).1 = some (characterOf held scancode)

/-- An event after which the driver still knows the modifier keys. A key with the code of a shift
key goes up only when no shift key stays down, and goes down only as one or besides one; so also for
the left control key. -/
def KeyEvent.Conforms (held : Finset PhysicalKey) (event : KeyEvent) : Prop :=
  (event.key.code = 0x2a ∨ event.key.code = 0x36 →
    if event.pressed then event.key.extended → leftShift ∈ held ∨ rightShift ∈ held
    else ∀ shift ∈ held, shift = leftShift ∨ shift = rightShift → shift = event.key) ∧
  (event.key.code = 0x1d → event.key.extended → (event.pressed ↔ leftCtrl ∈ held))

section Modifiers

variable {keyboard : Keyboard} {held : Finset PhysicalKey} {event : KeyEvent} {poll : Poll}
  {scancode : BitVec 8} {polls : List Poll}

/-- The variables after a byte. -/
def scan (keyboard : Keyboard) (scancode : BitVec 8) : Keyboard :=
  (ps2KeyboardFetch keyboard ⟨1, 0, scancode⟩).2

/-- Only the byte of a poll matters. -/
theorem keyboardFetch_byte (arrived : keyboardByte poll = some scancode) :
    ps2KeyboardFetch keyboard poll = ps2KeyboardFetch keyboard ⟨1, 0, scancode⟩ := by
  unfold keyboardByte at arrived
  by_cases both : poll.ready &&& 1 ≠ 0 ∧ poll.status &&& 32 = 0
  · rw [if_pos both] at arrived
    obtain rfl := Option.some.inj arrived
    unfold ps2KeyboardFetch
    simp only [both.1, both.2, if_false]
    rfl
  · rw [if_neg both] at arrived
    cases arrived

/-- A poll without a byte of the keyboard changes nothing. -/
theorem keyboardFetch_idle (idle : keyboardByte poll = none) :
    ps2KeyboardFetch keyboard poll = (none, keyboard) := by
  unfold keyboardByte at idle
  unfold ps2KeyboardFetch
  by_cases ready : poll.ready &&& 1 = 0
  · rw [if_pos ready]
  · by_cases status : poll.status &&& 32 = 0
    · rw [if_pos ⟨ready, status⟩] at idle
      cases idle
    · rw [if_neg ready, if_pos status]

/-- The variables only depend on the bytes. -/
theorem keyboardAfter_eq :
    keyboardAfter keyboard polls = (polls.filterMap keyboardByte).foldl scan keyboard := by
  unfold keyboardAfter
  induction polls generalizing keyboard with
  | nil => rfl
  | cons poll polls ih =>
    rw [List.foldl_cons, ih, List.filterMap_cons]
    cases arrived : keyboardByte poll with
    | none => rw [keyboardFetch_idle arrived]
    | some scancode => rw [keyboardFetch_byte arrived, List.foldl_cons, scan]

/-- The variables after the bytes of an event. -/
theorem scan_event : event.bytes.foldl scan keyboard =
    { shifted := if event.key.code = 0x2a ∨ event.key.code = 0x36 then event.pressed
        else keyboard.shifted
      ctrl := if event.key.code = 0x1d then event.pressed else keyboard.ctrl } := by
  have every : ∀ extended pressed shifted ctrl : Bool, ∀ code : BitVec 7,
      ((KeyEvent.mk ⟨extended, code⟩ pressed).bytes.foldl scan ⟨shifted, ctrl⟩).shifted =
          (if code = 0x2a ∨ code = 0x36 then pressed else shifted) ∧
        ((KeyEvent.mk ⟨extended, code⟩ pressed).bytes.foldl scan ⟨shifted, ctrl⟩).ctrl =
          if code = 0x1d then pressed else ctrl := by
    decide +kernel
  obtain ⟨shifted, ctrl⟩ := every event.key.extended event.pressed keyboard.shifted keyboard.ctrl
    event.key.code
  exact congrArg₂ Keyboard.mk shifted ctrl

/-- A key is one without a prefix exactly when it has none and the code. -/
theorem eq_key_iff {key : PhysicalKey} {code : BitVec 7} :
    ⟨false, code⟩ = key ↔ key.extended = false ∧ key.code = code := by
  cases key
  simp [eq_comm]

/-- The shift keys that are held down when an event is over. -/
theorem shifted_iff {shifted : Bool}
    (before : shifted ↔ leftShift ∈ held ∨ rightShift ∈ held) :
    ((if event.key.code = 0x2a ∨ event.key.code = 0x36 then event.pressed else shifted) = true ↔
        leftShift ∈ event.apply held ∨ rightShift ∈ event.apply held) ↔
      (event.key.code = 0x2a ∨ event.key.code = 0x36 →
        if event.pressed then event.key.extended → leftShift ∈ held ∨ rightShift ∈ held
        else ∀ shift ∈ held, shift = leftShift ∨ shift = rightShift → shift = event.key) := by
  have left : leftShift = event.key ↔ event.key.extended = false ∧ event.key.code = 0x2a :=
    eq_key_iff
  have right : rightShift = event.key ↔ event.key.extended = false ∧ event.key.code = 0x36 :=
    eq_key_iff
  unfold KeyEvent.apply
  by_cases code : event.key.code = 0x2a ∨ event.key.code = 0x36
  · rw [if_pos code]
    cases pressed : event.pressed with
    | true =>
      simp only [if_true, Finset.mem_insert, left, right]
      cases event.key.extended <;> grind
    | false =>
      simp only [Bool.false_eq_true, if_false, Finset.mem_erase]
      grind
  · rw [if_neg code, before]
    refine iff_of_true ?_ fun same => absurd same code
    cases event.pressed with
    | true =>
      simp only [if_true, Finset.mem_insert, left, right]
      grind
    | false =>
      simp only [Bool.false_eq_true, if_false, Finset.mem_erase]
      grind

/-- The left control key when an event is over. -/
theorem ctrl_iff {ctrl : Bool} (before : ctrl ↔ leftCtrl ∈ held) :
    ((if event.key.code = 0x1d then event.pressed else ctrl) = true ↔
        leftCtrl ∈ event.apply held) ↔
      (event.key.code = 0x1d → event.key.extended → (event.pressed ↔ leftCtrl ∈ held)) := by
  have same : leftCtrl = event.key ↔ event.key.extended = false ∧ event.key.code = 0x1d :=
    eq_key_iff
  unfold KeyEvent.apply
  cases event.pressed with
  | true =>
    simp only [if_true, Finset.mem_insert, same]
    cases event.key.extended <;> grind
  | false =>
    simp only [Bool.false_eq_true, if_false, Finset.mem_erase, ne_eq, same]
    cases event.key.extended <;> grind

/-- The character of a plain key. -/
theorem follows_characters (shifted : keyboard.shifted ↔ leftShift ∈ held ∨ rightShift ∈ held)
    (ctrl : keyboard.ctrl ↔ leftCtrl ∈ held) (arrived : keyboardByte poll = some scancode)
    (plain : IsPlain scancode) :
    (ps2KeyboardFetch keyboard poll).1 = some (characterOf held scancode) := by
  have returns : ∀ shifted ctrl : Bool, ∀ scancode : BitVec 8,
      scancode &&& 0x80 = 0 ∧ scancode ≠ 0x2a ∧ scancode ≠ 0x36 ∧ scancode ≠ 0x1d →
      (ps2KeyboardFetch ⟨shifted, ctrl⟩ ⟨1, 0, scancode⟩).1 =
        some ((Keyboard.mk shifted ctrl).key scancode) := by
    decide +kernel
  rw [keyboardFetch_byte arrived]
  refine (returns keyboard.shifted keyboard.ctrl scancode plain).trans (congrArg some ?_)
  unfold characterOf Keyboard.key
  simp only [← shifted, ← ctrl]

/-- One event keeps the driver's knowledge exactly when it conforms. -/
theorem Follows.event_iff (follows : Follows keyboard held) (event : KeyEvent) :
    Follows (event.bytes.foldl scan keyboard) (event.apply held) ↔ event.Conforms held := by
  have shifted := @shifted_iff _ event _ follows.shifted
  have ctrl := @ctrl_iff _ event _ follows.ctrl
  rw [scan_event]
  constructor
  · intro after
    exact ⟨shifted.mp after.shifted, ctrl.mp after.ctrl⟩
  · intro conforms
    have shift := shifted.mpr conforms.1
    have control := ctrl.mpr conforms.2
    exact ⟨shift, control, fun poll scancode => follows_characters shift control⟩

/-- The variables after the bytes of some events. -/
def known (events : List KeyEvent) : Keyboard :=
  (events.flatMap KeyEvent.bytes).foldl scan ⟨false, false⟩

/-- One more event. -/
theorem known_concat (done : List KeyEvent) (event : KeyEvent) :
    known (done ++ [event]) = event.bytes.foldl scan (known done) := by
  unfold known
  rw [List.flatMap_append, List.flatMap_singleton, List.foldl_append]

/-- One more event changes the keys that are held down. -/
theorem heldAfter_concat (done : List KeyEvent) (event : KeyEvent) :
    heldAfter (done ++ [event]) = event.apply (heldAfter done) := List.foldl_concat ..

/-- Any bytes can be delivered. -/
theorem deliverable (bytes : List (BitVec 8)) :
    (bytes.map fun byte => (⟨1, 0, byte⟩ : Poll)).filterMap keyboardByte = bytes := by
  rw [List.filterMap_map]
  simp [Function.comp_def, keyboardByte]

/-- The modifier keys and characters that the driver knows are those of the keys that are held down,
after every event, exactly when every event conforms. -/
theorem modifiers_iff (events : List KeyEvent) :
    (∀ done polls, done <+: events →
        polls.filterMap keyboardByte = done.flatMap KeyEvent.bytes →
          Follows (keyboardAfter ⟨false, false⟩ polls) (heldAfter done)) ↔
      ∀ done event, done ++ [event] <+: events → event.Conforms (heldAfter done) := by
  constructor
  · intro follows done event inside
    have reached : ∀ done, done <+: events → Follows (known done) (heldAfter done) := by
      intro done inside
      have delivered := follows done _ inside (deliverable _)
      rwa [keyboardAfter_eq, deliverable] at delivered
    have after := reached _ inside
    rw [known_concat, heldAfter_concat] at after
    exact ((reached done ((List.prefix_append _ _).trans inside)).event_iff event).mp after
  · intro conforms done polls inside delivered
    rw [keyboardAfter_eq, delivered]
    show Follows (known done) (heldAfter done)
    clear delivered
    induction done using List.reverseRecOn with
    | nil =>
      have shifted : (known []).shifted ↔ leftShift ∈ heldAfter [] ∨ rightShift ∈ heldAfter [] := by
        simp [known, heldAfter]
      have ctrl : (known []).ctrl ↔ leftCtrl ∈ heldAfter [] := by simp [known, heldAfter]
      exact ⟨shifted, ctrl, fun poll scancode => follows_characters shifted ctrl⟩
    | append_singleton done event ih =>
      rw [known_concat, heldAfter_concat]
      have before := ih ((List.prefix_append _ _).trans inside)
      exact (before.event_iff event).mpr (conforms done event inside)

/-- When one of two shift keys goes up the driver forgets the other one. -/
theorem second_shift_forgotten :
    ¬ ∀ (events : List KeyEvent) (polls : List Poll), Alternates ∅ events →
      polls.filterMap keyboardByte = events.flatMap KeyEvent.bytes →
        Follows (keyboardAfter ⟨false, false⟩ polls) (heldAfter events) := by
  intro claim
  have follows := claim [⟨leftShift, true⟩, ⟨rightShift, true⟩, ⟨rightShift, false⟩]
    [⟨1, 0, 0x2a⟩, ⟨1, 0, 0x36⟩, ⟨1, 0, 0xb6⟩] ⟨by decide, by decide, by decide, trivial⟩
    (by decide +kernel)
  exact absurd (follows.shifted.mpr (.inl (by decide +kernel))) (by decide +kernel)

end Modifiers

end Unarddeg
