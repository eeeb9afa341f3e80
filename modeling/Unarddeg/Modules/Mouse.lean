import Unarddeg.Modules.Keyboard

/-!
# The packets of the PS/2 mouse

`ps2_read_mouse_packet`, `ps2_mouse_fetch` and `ps2_mouse_read` of `modules/ps2/main.c`, and the
interrupt flag around them and `ps2_keyboard_fetch`. A poll is what the ports give to one call: two
status bytes, and the data byte for which `ps2_read_data` waits. What the driver makes of a stream
of bytes is compared with a parser that takes whole packets off the stream.
-/

namespace Unarddeg

open Library

/-! ## The driver -/

/-- `ps2_mouse_packet_t`. -/
structure MousePacket where
  /-- `flags`. -/
  flags : BitVec 8
  /-- `x_movement`. -/
  xMovement : BitVec 16
  /-- `y_movement`. -/
  yMovement : BitVec 16
  /-- `z_movement`. -/
  zMovement : BitVec 8
  /-- `buttons`. -/
  buttons : BitVec 8

/-- The variables of the driver, and the interrupt flag of the processor. -/
structure Ps2 where
  /-- `packet_data`, and what is behind it. -/
  packetData : Nat → BitVec 8
  /-- `packet_index`. -/
  packetIndex : BitVec 8
  /-- `shifted` and `ctrl`. -/
  keyboard : Keyboard
  /-- Whether interrupts are enabled. -/
  interrupts : Bool

/-- `packet_size`. -/
def packetSize : BitVec 8 := 3

/-- `ArchCli`. -/
def Ps2.archCli (ps2 : Ps2) : Ps2 := { ps2 with interrupts := false }

/-- `ArchSti`. -/
def Ps2.archSti (ps2 : Ps2) : Ps2 := { ps2 with interrupts := true }

/-- A movement: the data byte, cleared by the overflow bit, and then or-ed with `0xFFFFFF00` if the
sign bit is set. -/
def movement (flags data overflow sign : BitVec 8) : BitVec 16 :=
  let moved := if flags &&& overflow ≠ 0 then 0 else data.setWidth 16
  if flags &&& sign ≠ 0 then (moved.signExtend 32 ||| 0xFFFFFF00).setWidth 16 else moved

/-- The bit of a button. -/
def button (flags bit : BitVec 8) : BitVec 8 := if flags &&& bit ≠ 0 then bit else 0

/-- The packet that is assembled. -/
def mousePacket (packetData : Nat → BitVec 8) : MousePacket where
  flags := packetData 0
  xMovement := movement (packetData 0) (packetData 1) 0x40 0x10
  yMovement := movement (packetData 0) (packetData 2) 0x80 0x20
  zMovement := 0
  buttons := button (packetData 0) 1 ||| button (packetData 0) 2 ||| button (packetData 0) 4

/-- `ps2_read_mouse_packet`: the packet if it returns `true`. -/
def ps2ReadMousePacket (ps2 : Ps2) (poll : Poll) : Option MousePacket × Ps2 :=
  let ps2 := ps2.archCli
  if poll.ready &&& 1 = 0 then (none, ps2)
  else if poll.status &&& 32 = 0 then (none, ps2)
  else if ps2.packetIndex = 0 ∧ poll.data &&& 8 = 0 then (none, { ps2 with packetIndex := 0 })
  else
    let ps2 := { ps2 with
      packetData := Function.update ps2.packetData ps2.packetIndex.toNat poll.data
      packetIndex := ps2.packetIndex + 1 }
    if packetSize ≤ ps2.packetIndex then
      (some (mousePacket ps2.packetData), { ps2 with packetIndex := 0 })
    else (none, ps2.archSti)

/-- What `ps2_mouse_fetch` updates. -/
structure Pointing where
  /-- `*mx`. -/
  mx : BitVec 32
  /-- `*my`. -/
  my : BitVec 32
  /-- `*buttons`. -/
  buttons : BitVec 8

/-- A movement as an `int8_t`. -/
def delta (movement : BitVec 16) : BitVec 32 := (movement.setWidth 8).signExtend 32

/-- A packet moves the pointer. -/
def Pointing.move (pointing : Pointing) (packet : MousePacket) : Pointing where
  mx := pointing.mx + delta packet.xMovement
  my := pointing.my - delta packet.yMovement
  buttons := packet.buttons

/-- `ps2_mouse_fetch`. -/
def ps2MouseFetch (state : Ps2 × Pointing) (poll : Poll) : Ps2 × Pointing :=
  match ps2ReadMousePacket state.1 poll with
  | (none, ps2) => (ps2, state.2)
  | (some packet, ps2) => (ps2, state.2.move packet)

/-- The packets that calls of `ps2_read_mouse_packet` return one after the other. -/
def mousePackets : Ps2 → List Poll → List MousePacket
  | _, [] => []
  | ps2, poll :: polls =>
    let (packet, next) := ps2ReadMousePacket ps2 poll
    packet.toList ++ mousePackets next polls

/-- The driver after calls of `ps2_read_mouse_packet`. -/
def afterPolls (ps2 : Ps2) (polls : List Poll) : Ps2 :=
  polls.foldl (fun ps2 poll => (ps2ReadMousePacket ps2 poll).2) ps2

/-- The byte of the mouse that a poll delivers. -/
def mouseByte (poll : Poll) : Option (BitVec 8) :=
  if poll.ready &&& 1 ≠ 0 ∧ poll.status &&& 32 ≠ 0 then some poll.data else none

/-- The bytes of the mouse that polls deliver. -/
def mouseBytes (polls : List Poll) : List (BitVec 8) := polls.filterMap mouseByte

/-! ## Packets on a stream -/

/-- The three bytes of a packet. -/
structure RawPacket where
  /-- The first byte. -/
  flags : BitVec 8
  /-- The second byte. -/
  x : BitVec 8
  /-- The third byte. -/
  y : BitVec 8

/-- The packets on a stream: bytes are dropped until one with bit 3 set, which begins a packet with
the next two. -/
def packetsOf : List (BitVec 8) → List RawPacket
  | [] => []
  | flags :: bytes =>
    if flags &&& 8 ≠ 0 then
      match bytes with
      | x :: y :: rest => ⟨flags, x, y⟩ :: packetsOf rest
      | _ => []
    else packetsOf bytes

/-- What a packet reports. -/
@[ext] structure Report where
  /-- The movement to the right. -/
  x : Int
  /-- The movement upwards. -/
  y : Int
  /-- The buttons that are held down. -/
  buttons : BitVec 8

/-- The two's complement number of a sign bit and eight more bits. -/
def nineBits (flags data sign : BitVec 8) : Int :=
  if flags &&& sign ≠ 0 then data.toNat - 256 else data.toNat

/-- What the bytes of a packet mean. -/
def RawPacket.report (packet : RawPacket) : Report where
  x := if packet.flags &&& 0x40 ≠ 0 then 0 else nineBits packet.flags packet.x 0x10
  y := if packet.flags &&& 0x80 ≠ 0 then 0 else nineBits packet.flags packet.y 0x20
  buttons := packet.flags &&& 7

/-- What an assembled packet says. -/
def MousePacket.report (packet : MousePacket) : Report where
  x := packet.xMovement.toInt
  y := packet.yMovement.toInt
  buttons := packet.buttons

/-- The overflow bit and the sign bit of one movement are both set. -/
def RawPacket.Clashes (packet : RawPacket) : Prop :=
  (packet.flags &&& 0x40 ≠ 0 ∧ packet.flags &&& 0x10 ≠ 0) ∨
    (packet.flags &&& 0x80 ≠ 0 ∧ packet.flags &&& 0x20 ≠ 0)

/-- The packet that the driver makes of three bytes. -/
def RawPacket.assembled (packet : RawPacket) : MousePacket :=
  mousePacket fun index => [packet.flags, packet.x, packet.y].getD index 0

section Packets

variable {ps2 : Ps2} {poll : Poll} {polls : List Poll} {byte : BitVec 8}
  {pending more : List (BitVec 8)}

/-- Bytes that do not begin a packet are dropped. -/
theorem packetsOf_drop (plain : byte &&& 8 = 0) : packetsOf (byte :: more) = packetsOf more := by
  rw [packetsOf.eq_def]
  exact if_neg (not_not.mpr plain)

/-- A packet is taken off the stream. -/
theorem packetsOf_cons {x y : BitVec 8} (begins : byte &&& 8 ≠ 0) :
    packetsOf (byte :: x :: y :: more) = ⟨byte, x, y⟩ :: packetsOf more := by
  rw [packetsOf, if_pos begins]

/-- A call without a byte of the mouse returns with interrupts disabled. -/
theorem readMousePacket_idle (idle : mouseByte poll = none) :
    ps2ReadMousePacket ps2 poll = (none, ps2.archCli) := by
  unfold mouseByte at idle
  unfold ps2ReadMousePacket
  by_cases ready : poll.ready &&& 1 = 0
  · simp only [ready, if_true]
  · by_cases status : poll.status &&& 32 = 0
    · simp only [ready, status, if_true, if_false]
    · rw [if_pos ⟨ready, status⟩] at idle
      cases idle

/-- A call that reads a byte of the mouse. -/
theorem readMousePacket_byte (arrived : mouseByte poll = some byte) :
    ps2ReadMousePacket ps2 poll =
      if ps2.packetIndex = 0 ∧ byte &&& 8 = 0 then (none, { ps2.archCli with packetIndex := 0 })
      else
        let next := { ps2.archCli with
          packetData := Function.update ps2.packetData ps2.packetIndex.toNat byte
          packetIndex := ps2.packetIndex + 1 }
        if packetSize ≤ next.packetIndex then
          (some (mousePacket next.packetData), { next with packetIndex := 0 })
        else (none, next.archSti) := by
  unfold mouseByte at arrived
  by_cases both : poll.ready &&& 1 ≠ 0 ∧ poll.status &&& 32 ≠ 0
  · rw [if_pos both] at arrived
    obtain rfl := Option.some.inj arrived
    unfold ps2ReadMousePacket
    simp only [both.1, both.2, if_false]
    rfl
  · rw [if_neg both] at arrived
    cases arrived

/-- The bytes of the packet that the driver assembles. -/
inductive Assembles (ps2 : Ps2) : List (BitVec 8) → Prop
  /-- It waits for a first byte. -/
  | empty : ps2.packetIndex = 0 → Assembles ps2 []
  /-- The first byte arrived. -/
  | one : ps2.packetIndex = 1 → ps2.packetData 0 &&& 8 ≠ 0 → Assembles ps2 [ps2.packetData 0]
  /-- The second byte arrived too. -/
  | two : ps2.packetIndex = 2 → ps2.packetData 0 &&& 8 ≠ 0 →
      Assembles ps2 [ps2.packetData 0, ps2.packetData 1]

/-- The index is inside a packet. -/
theorem Assembles.index_lt (assembles : Assembles ps2 pending) : ps2.packetIndex < packetSize := by
  cases assembles with
  | empty index => rw [index]; decide
  | one index => rw [index]; decide
  | two index => rw [index]; decide

/-- An incomplete packet is none. -/
theorem Assembles.packetsOf_eq (assembles : Assembles ps2 pending) : packetsOf pending = [] := by
  cases assembles with
  | empty => rfl
  | one => simp [packetsOf]
  | two => simp [packetsOf]

/-- One call takes its byte off the stream. -/
theorem Assembles.step (assembles : Assembles ps2 pending) (poll : Poll) :
    ∃ (raw : Option RawPacket) (next : List (BitVec 8)),
      (ps2ReadMousePacket ps2 poll).1 = raw.map RawPacket.assembled ∧
      Assembles (ps2ReadMousePacket ps2 poll).2 next ∧
      ∀ more, packetsOf (pending ++ ((mouseByte poll).toList ++ more)) =
        raw.toList ++ packetsOf (next ++ more) := by
  cases arrived : mouseByte poll with
  | none =>
    rw [readMousePacket_idle arrived]
    refine ⟨none, pending, rfl, ?_, fun more => rfl⟩
    cases assembles with
    | empty index => exact .empty index
    | one index begins => exact .one index begins
    | two index begins => exact .two index begins
  | some byte =>
    rw [readMousePacket_byte arrived]
    cases assembles with
    | empty index =>
      by_cases plain : byte &&& 8 = 0
      · rw [if_pos ⟨index, plain⟩]
        exact ⟨none, [], rfl, .empty rfl, fun more => packetsOf_drop plain⟩
      · rw [if_neg fun both => plain both.2]
        simp only [index]
        exact ⟨none, [byte], rfl, .one rfl plain, fun more => rfl⟩
    | one index begins =>
      rw [if_neg fun both => absurd (index.symm.trans both.1) (by decide)]
      simp only [index]
      exact ⟨none, [ps2.packetData 0, byte], rfl, .two rfl begins, fun more => rfl⟩
    | two index begins =>
      rw [if_neg fun both => absurd (index.symm.trans both.1) (by decide)]
      simp only [index]
      exact ⟨some ⟨ps2.packetData 0, ps2.packetData 1, byte⟩, [], rfl, .empty rfl,
        fun more => packetsOf_cons begins⟩

/-- The packets of a call and of those after it. -/
theorem mousePackets_cons : mousePackets ps2 (poll :: polls) =
    (ps2ReadMousePacket ps2 poll).1.toList ++
      mousePackets (ps2ReadMousePacket ps2 poll).2 polls := rfl

/-- The bytes of a poll come in front of those of the later ones. -/
theorem mouseBytes_cons :
    mouseBytes (poll :: polls) = (mouseByte poll).toList ++ mouseBytes polls := by
  unfold mouseBytes
  rw [List.filterMap_cons]
  cases mouseByte poll <;> rfl

/-- What the driver makes of a stream, from where it is in a packet; the rest of the stream goes on
from where it is then. -/
theorem Assembles.run (assembles : Assembles ps2 pending) (polls : List Poll) :
    mousePackets ps2 polls =
        (packetsOf (pending ++ mouseBytes polls)).map RawPacket.assembled ∧
      ∃ next, Assembles (afterPolls ps2 polls) next ∧
        ∀ more, packetsOf (pending ++ (mouseBytes polls ++ more)) =
          packetsOf (pending ++ mouseBytes polls) ++ packetsOf (next ++ more) := by
  induction polls generalizing ps2 pending with
  | nil =>
    have none : packetsOf (pending ++ mouseBytes []) = [] := by
      rw [mouseBytes, List.filterMap_nil, List.append_nil, assembles.packetsOf_eq]
    rw [none]
    exact ⟨rfl, pending, assembles, fun more => rfl⟩
  | cons poll polls ih =>
    obtain ⟨raw, next, emitted, assembling, taken⟩ := assembles.step poll
    obtain ⟨rest, last, assembled, goesOn⟩ := ih assembling
    rw [mousePackets_cons, emitted, rest, mouseBytes_cons, taken, List.map_append]
    refine ⟨by cases raw <;> rfl, last, assembled, fun more => ?_⟩
    rw [List.append_assoc, taken, goesOn, List.append_assoc]

/-- The driver before the first byte of a packet. -/
def Ps2.waiting (packetData : Nat → BitVec 8) (keyboard : Keyboard) (interrupts : Bool) : Ps2 :=
  ⟨packetData, 0, keyboard, interrupts⟩

/-- The movement that the driver computes is the one of the nine bits, and 0 for an overflow, unless
the sign bit is set on top of the overflow bit. -/
theorem movement_iff (flags data overflow sign : BitVec 8) :
    (movement flags data overflow sign).toInt =
        (if flags &&& overflow ≠ 0 then 0 else nineBits flags data sign) ↔
      ¬ (flags &&& overflow ≠ 0 ∧ flags &&& sign ≠ 0) := by
  have negative : ∀ data : BitVec 8,
      (((data.setWidth 16).signExtend 32 ||| 0xFFFFFF00).setWidth 16 : BitVec 16).toInt =
        data.toNat - 256 := by decide +kernel
  have positive : ∀ data : BitVec 8, (data.setWidth 16 : BitVec 16).toInt = data.toNat := by
    decide +kernel
  unfold movement nineBits
  by_cases clears : flags &&& overflow ≠ 0
  · by_cases minus : flags &&& sign ≠ 0
    · simp only [if_pos clears, if_pos minus]
      exact iff_of_false (by decide) fun apart => apart ⟨clears, minus⟩
    · simp only [if_pos clears, if_neg minus]
      exact iff_of_true (by decide) fun both => minus both.2
  · by_cases minus : flags &&& sign ≠ 0
    · simp only [if_neg clears, if_pos minus]
      exact iff_of_true (negative data) fun both => clears both.1
    · simp only [if_neg clears, if_neg minus]
      exact iff_of_true (positive data) fun both => clears both.1

/-- The buttons are the low three bits. -/
theorem button_or (flags : BitVec 8) :
    button flags 1 ||| button flags 2 ||| button flags 4 = flags &&& 7 := by
  revert flags
  decide +kernel

/-- A packet says what its bytes mean unless an overflow bit clashes with a sign bit. -/
theorem RawPacket.report_iff (packet : RawPacket) :
    packet.assembled.report = packet.report ↔ ¬ packet.Clashes := by
  have x := movement_iff packet.flags packet.x 0x40 0x10
  have y := movement_iff packet.flags packet.y 0x80 0x20
  unfold RawPacket.Clashes
  rw [not_or, ← x, ← y, Report.ext_iff]
  constructor
  · rintro ⟨right, up, _⟩
    exact ⟨right, up⟩
  · rintro ⟨right, up⟩
    exact ⟨right, up, button_or packet.flags⟩

/-- The packets of the mouse are those of its stream of bytes, with the index of the next byte
inside a packet, and they say what their bytes mean exactly when in none of them the overflow bit
and the sign bit of one movement are both set. -/
theorem mouse_packets_iff (packetData : Nat → BitVec 8) (keyboard : Keyboard) (interrupts : Bool)
    (polls : List Poll) :
    (afterPolls (.waiting packetData keyboard interrupts) polls).packetIndex < packetSize ∧
      ((mousePackets (.waiting packetData keyboard interrupts) polls).map MousePacket.report =
          (packetsOf (mouseBytes polls)).map RawPacket.report ↔
        ∀ packet ∈ packetsOf (mouseBytes polls), ¬ packet.Clashes) := by
  have waits : Assembles (.waiting packetData keyboard interrupts) [] := .empty rfl
  obtain ⟨emitted, last, assembles, _⟩ := waits.run polls
  refine ⟨assembles.index_lt, ?_⟩
  rw [emitted, List.nil_append, List.map_map, List.map_inj_left]
  exact forall₂_congr fun packet _ => packet.report_iff

/-- A packet with both bits of its movement to the right set reports -256 for it. -/
theorem overflow_reported :
    ¬ ∀ (packetData : Nat → BitVec 8) (keyboard : Keyboard) (interrupts : Bool)
      (polls : List Poll),
      (mousePackets (.waiting packetData keyboard interrupts) polls).map MousePacket.report =
        (packetsOf (mouseBytes polls)).map RawPacket.report := by
  intro claim
  have same := claim (fun _ => 0) ⟨false, false⟩ true
    [⟨1, 0x21, 0x58⟩, ⟨1, 0x21, 0⟩, ⟨1, 0x21, 0⟩]
  have x := congrArg (fun reports => reports.map Report.x) same
  exact absurd x (by decide +kernel)

end Packets

/-! ## Sums of movements -/

/-- The movement to the right of a packet without overflow. -/
def RawPacket.dx (packet : RawPacket) : Int := nineBits packet.flags packet.x 0x10

/-- The movement upwards of a packet without overflow. -/
def RawPacket.dy (packet : RawPacket) : Int := nineBits packet.flags packet.y 0x20

/-- Neither overflow bit is set. -/
def RawPacket.Plain (packet : RawPacket) : Prop :=
  packet.flags &&& 0x40 = 0 ∧ packet.flags &&& 0x80 = 0

/-- An `int` holds a number. -/
def FitsInt (value : Int) : Prop := -2 ^ 31 ≤ value ∧ value < 2 ^ 31

/-- An `int8_t` holds a number. -/
def FitsInt8 (value : Int) : Prop := -2 ^ 7 ≤ value ∧ value < 2 ^ 7

instance decidablePlain (packet : RawPacket) : Decidable packet.Plain :=
  inferInstanceAs (Decidable (_ ∧ _))

instance decidableFitsInt (value : Int) : Decidable (FitsInt value) :=
  inferInstanceAs (Decidable (_ ∧ _))

/-- The movement to the right of some packets. -/
def sumX (packets : List RawPacket) : Int := (packets.map RawPacket.dx).sum

/-- The movement upwards of some packets. -/
def sumY (packets : List RawPacket) : Int := (packets.map RawPacket.dy).sum

/-- The pointer moved by the movements of some packets; the y axis points down. -/
def Pointing.MovedBy (start reached : Pointing) (packets : List RawPacket) : Prop :=
  reached.mx.toInt = start.mx.toInt + sumX packets ∧
    reached.my.toInt = start.my.toInt - sumY packets

/-- The pointer after calls of `ps2_mouse_fetch`. -/
def fetched (ps2 : Ps2) (pointing : Pointing) (polls : List Poll) : Pointing :=
  (polls.foldl ps2MouseFetch (ps2, pointing)).2

section Sums

variable {ps2 : Ps2} {pointing start reached : Pointing} {polls : List Poll} {poll : Poll}
  {packets : List RawPacket} {packet : RawPacket}

/-- A sum of nine bits. -/
theorem nineBits_bounds (flags data sign : BitVec 8) :
    -256 ≤ nineBits flags data sign ∧ nineBits flags data sign < 256 := by
  have below := data.isLt
  unfold nineBits
  split <;> omega

/-- Without overflow the movement passes through `int8_t` exactly when it fits. -/
theorem delta_iff {flags data overflow sign : BitVec 8} (plain : flags &&& overflow = 0) :
    (delta (movement flags data overflow sign)).toInt = nineBits flags data sign ↔
      FitsInt8 (nineBits flags data sign) := by
  have negative : ∀ data : BitVec 8,
      (delta (((data.setWidth 16).signExtend 32 ||| 0xFFFFFF00).setWidth 16)).toInt =
        data.toNat - 256 ↔ (-128 ≤ (data.toNat : Int) - 256 ∧ (data.toNat : Int) - 256 < 128) := by
    decide +kernel
  have positive : ∀ data : BitVec 8, (delta (data.setWidth 16)).toInt = data.toNat ↔
      (-128 ≤ (data.toNat : Int) ∧ (data.toNat : Int) < 128) := by
    decide +kernel
  unfold movement nineBits FitsInt8
  simp only [if_neg (not_not.mpr plain)]
  by_cases minus : flags &&& sign ≠ 0
  · simp only [if_pos minus]
    exact negative data
  · simp only [if_neg minus]
    exact positive data

/-- A difference is small. -/
theorem delta_bounds (moved : BitVec 16) :
    -128 ≤ (delta moved).toInt ∧ (delta moved).toInt < 128 := by
  have every : ∀ byte : BitVec 8,
      -128 ≤ (byte.signExtend 32).toInt ∧ (byte.signExtend 32).toInt < 128 := by
    decide +kernel
  exact every (moved.setWidth 8)

/-- A sum in an `int` is exact exactly when its second term is. -/
theorem toInt_add_iff {base change : BitVec 32} {value : Int}
    (small : -128 ≤ change.toInt ∧ change.toInt < 128) (near : -256 ≤ value ∧ value < 256)
    (fits : FitsInt (base.toInt + value)) :
    (base + change).toInt = base.toInt + value ↔ change.toInt = value := by
  have sum := BitVec.toInt_add base change
  unfold FitsInt at fits
  rw [sum, Int.bmod_def]
  omega

/-- And so is a difference. -/
theorem toInt_sub_iff {base change : BitVec 32} {value : Int}
    (small : -128 ≤ change.toInt ∧ change.toInt < 128) (near : -256 ≤ value ∧ value < 256)
    (fits : FitsInt (base.toInt - value)) :
    (base - change).toInt = base.toInt - value ↔ change.toInt = value := by
  have difference := @BitVec.toInt_sub 32 base change
  unfold FitsInt at fits
  rw [difference, Int.bmod_def]
  omega

/-- A call moves the pointer by the packet that it reads. -/
theorem ps2MouseFetch_eq : ps2MouseFetch (ps2, pointing) poll =
    ((ps2ReadMousePacket ps2 poll).2,
      (ps2ReadMousePacket ps2 poll).1.toList.foldl Pointing.move pointing) := by
  unfold ps2MouseFetch
  rcases ps2ReadMousePacket ps2 poll with ⟨_ | packet, next⟩
  · rfl
  · rfl

/-- Calls move the pointer by the packets that they read. -/
theorem fetched_eq :
    fetched ps2 pointing polls = (mousePackets ps2 polls).foldl Pointing.move pointing := by
  unfold fetched
  induction polls generalizing ps2 pointing with
  | nil => rfl
  | cons poll polls ih =>
    rw [List.foldl_cons, ps2MouseFetch_eq, ih, mousePackets_cons, List.foldl_append]

/-- One more packet keeps the sums exact exactly when its movements fit in `int8_t`. -/
theorem Pointing.MovedBy.move_iff (moved : start.MovedBy reached packets) (plain : packet.Plain)
    (fitsX : FitsInt (start.mx.toInt + sumX (packets ++ [packet])))
    (fitsY : FitsInt (start.my.toInt - sumY (packets ++ [packet]))) :
    start.MovedBy (reached.move packet.assembled) (packets ++ [packet]) ↔
      FitsInt8 packet.dx ∧ FitsInt8 packet.dy := by
  have x : sumX (packets ++ [packet]) = sumX packets + packet.dx := by simp [sumX]
  have y : sumY (packets ++ [packet]) = sumY packets + packet.dy := by simp [sumY]
  have right : start.mx.toInt + sumX (packets ++ [packet]) = reached.mx.toInt + packet.dx := by
    rw [x, moved.1, Int.add_assoc]
  have up : start.my.toInt - sumY (packets ++ [packet]) = reached.my.toInt - packet.dy := by
    rw [y, moved.2, Int.sub_sub]
  unfold MovedBy
  rw [right, up]
  rw [right] at fitsX
  rw [up] at fitsY
  have exactX := (toInt_add_iff (delta_bounds _) (nineBits_bounds ..) fitsX).trans
    (delta_iff plain.1)
  have exactY := (toInt_sub_iff (delta_bounds _) (nineBits_bounds ..) fitsY).trans
    (delta_iff plain.2)
  exact and_congr exactX exactY

/-- From the beginning of a packet on, the pointer moves by the packets of the stream. -/
theorem fetched_waiting (packetData : Nat → BitVec 8) (keyboard : Keyboard) (interrupts : Bool)
    (start : Pointing) (polls : List Poll) :
    fetched (.waiting packetData keyboard interrupts) start polls =
      ((packetsOf (mouseBytes polls)).map RawPacket.assembled).foldl Pointing.move start := by
  have waits : Assembles (.waiting packetData keyboard interrupts) [] := .empty rfl
  rw [fetched_eq, (waits.run polls).1, List.nil_append]

/-- One more poll completes one packet or none. -/
theorem packetsOf_concat (polls : List Poll) (poll : Poll) : ∃ raw : Option RawPacket,
    packetsOf (mouseBytes (polls ++ [poll])) = packetsOf (mouseBytes polls) ++ raw.toList := by
  have waits : Assembles (.waiting (fun _ => 0) ⟨false, false⟩ true) [] := .empty rfl
  obtain ⟨_, next, assembles, goesOn⟩ := waits.run polls
  obtain ⟨raw, last, _, assembling, taken⟩ := assembles.step poll
  have bytes : mouseBytes (polls ++ [poll]) =
      mouseBytes polls ++ ((mouseByte poll).toList ++ []) := by
    rw [mouseBytes, List.filterMap_append]
    exact congrArg (mouseBytes polls ++ ·) mouseBytes_cons
  have rest := goesOn ((mouseByte poll).toList ++ [])
  rw [taken, List.append_nil last, assembling.packetsOf_eq, List.append_nil raw.toList] at rest
  exact ⟨raw, bytes ▸ rest⟩

/-- The pointer moves by the sums of the movements, after every one of some calls, exactly when
each movement fits in an `int8_t`. -/
theorem mouse_sums_iff (packetData : Nat → BitVec 8) (keyboard : Keyboard) (interrupts : Bool)
    (start : Pointing) (polls : List Poll)
    (plain : ∀ packet ∈ packetsOf (mouseBytes polls), packet.Plain)
    (fits : ∀ done, done <+: polls →
      FitsInt (start.mx.toInt + sumX (packetsOf (mouseBytes done))) ∧
        FitsInt (start.my.toInt - sumY (packetsOf (mouseBytes done)))) :
    (∀ done, done <+: polls →
        start.MovedBy (fetched (.waiting packetData keyboard interrupts) start done)
          (packetsOf (mouseBytes done))) ↔
      ∀ packet ∈ packetsOf (mouseBytes polls), FitsInt8 packet.dx ∧ FitsInt8 packet.dy := by
  simp only [fetched_waiting]
  induction polls using List.reverseRecOn with
  | nil =>
    refine iff_of_true ?_ (by simp [mouseBytes, packetsOf])
    intro done inside
    rw [List.prefix_nil.mp inside]
    exact ⟨(Int.add_zero _).symm, (Int.sub_zero _).symm⟩
  | append_singleton polls poll ih =>
    obtain ⟨raw, more⟩ := packetsOf_concat polls poll
    have earlier := ih
      (fun packet member => plain packet (more ▸ List.mem_append_left _ member))
      (fun done inside => fits done (inside.trans (List.prefix_append _ _)))
    have now := fits _ (List.prefix_refl _)
    simp only [List.prefix_concat_iff, forall_eq_or_imp, earlier, more]
    cases raw with
    | none =>
      simp only [Option.toList_none, List.append_nil, and_iff_right_iff_imp]
      exact fun small => earlier.mpr small polls (List.prefix_refl _)
    | some packet =>
      rw [more] at plain now
      have clear := plain packet (List.mem_append_right _ List.mem_cons_self)
      rw [Option.toList_some, List.map_append, List.map_singleton, List.foldl_concat]
      constructor
      · rintro ⟨whole, small⟩ other member
        have moved := earlier.mpr small polls (List.prefix_refl _)
        rcases List.mem_append.mp member with inside | last
        · exact small other inside
        · rw [List.mem_singleton.mp last]
          exact (moved.move_iff clear now.1 now.2).mp whole
      · intro small
        have before := fun other inside => small other (List.mem_append_left _ inside)
        have moved := earlier.mpr before polls (List.prefix_refl _)
        have last := small packet (List.mem_append_right _ List.mem_cons_self)
        exact ⟨(moved.move_iff clear now.1 now.2).mpr last, before⟩

/-- Two movements to the right. -/
theorem mouse_sums_iff_sample :
    (∀ done, done <+: [⟨1, 0x21, 8⟩, ⟨1, 0x21, 100⟩, ⟨1, 0x21, 0⟩] →
        (⟨5, 5, 0⟩ : Pointing).MovedBy
          (fetched (.waiting (fun _ => 0) ⟨false, false⟩ true) ⟨5, 5, 0⟩ done)
          (packetsOf (mouseBytes done))) ↔
      ∀ packet ∈ packetsOf (mouseBytes [⟨1, 0x21, 8⟩, ⟨1, 0x21, 100⟩, ⟨1, 0x21, 0⟩]),
        FitsInt8 packet.dx ∧ FitsInt8 packet.dy := by
  have every : ∀ done ∈ [⟨1, 0x21, 8⟩, ⟨1, 0x21, 100⟩, ⟨1, 0x21, 0⟩].inits,
      FitsInt ((5 : BitVec 32).toInt + sumX (packetsOf (mouseBytes done))) ∧
        FitsInt ((5 : BitVec 32).toInt - sumY (packetsOf (mouseBytes done))) := by
    decide +kernel
  exact mouse_sums_iff _ _ _ _ _ (by decide +kernel)
    fun done inside => every done ((List.mem_inits done _).mpr inside)

/-- A movement by 200 to the right goes to the left. -/
theorem fast_movement_reversed :
    ¬ ∀ (packetData : Nat → BitVec 8) (keyboard : Keyboard) (interrupts : Bool)
      (start : Pointing) (polls : List Poll),
      (∀ packet ∈ packetsOf (mouseBytes polls), packet.Plain) →
      (∀ done, done <+: polls → FitsInt (start.mx.toInt + sumX (packetsOf (mouseBytes done))) ∧
        FitsInt (start.my.toInt - sumY (packetsOf (mouseBytes done)))) →
      start.MovedBy (fetched (.waiting packetData keyboard interrupts) start polls)
        (packetsOf (mouseBytes polls)) := by
  intro claim
  have every : ∀ done ∈ [⟨1, 0x21, 8⟩, ⟨1, 0x21, 200⟩, ⟨1, 0x21, 0⟩].inits,
      FitsInt ((0 : BitVec 32).toInt + sumX (packetsOf (mouseBytes done))) ∧
        FitsInt ((0 : BitVec 32).toInt - sumY (packetsOf (mouseBytes done))) := by
    decide +kernel
  have moved := claim (fun _ => 0) ⟨false, false⟩ true ⟨0, 0, 0⟩
    [⟨1, 0x21, 8⟩, ⟨1, 0x21, 200⟩, ⟨1, 0x21, 0⟩] (by decide +kernel)
    fun done inside => every done ((List.mem_inits done _).mpr inside)
  exact absurd moved.1 (by decide +kernel)

end Sums

/-! ## The interrupt flag -/

/-- The bytes of a `ps2_mouse_packet_t`, with one of padding. -/
def MousePacket.bytes (packet : MousePacket) (index : Nat) : BitVec 8 :=
  [packet.flags, 0, byteAt packet.xMovement 0, byteAt packet.xMovement 1,
    byteAt packet.yMovement 0, byteAt packet.yMovement 1, packet.zMovement,
    packet.buttons].getD index 0

/-- `ps2_keyboard_fetch` with the interrupt flag. The scancode is interpreted after `ArchSti`. -/
def Ps2.keyboardFetch (ps2 : Ps2) (poll : Poll) : Option (BitVec 8) × Ps2 :=
  let ps2 := ps2.archCli
  if poll.ready &&& 1 = 0 then (none, ps2.archSti)
  else if poll.status &&& 32 ≠ 0 then (none, ps2.archSti)
  else
    let (hit, keyboard) := ps2KeyboardFetch ps2.keyboard poll
    (hit, { ps2.archSti with keyboard })

/-- A call on the PS/2 devices. -/
inductive Ps2Call (width : Nat)
  /-- `ps2_read_mouse_packet`. -/
  | readMousePacket
  /-- `ps2_mouse_read`. -/
  | mouseRead (buf : Option (Nat → BitVec 8)) (size elements : BitVec width)
  /-- `ps2_keyboard_fetch`. -/
  | keyboardFetch

section Interrupts

variable {width : Nat}

/-- The driver after a call, if the call returns. -/
def Ps2.call (ps2 : Ps2) (poll : Poll) : Ps2Call width → Except Stop Ps2
  | .readMousePacket => pure (ps2ReadMousePacket ps2 poll).2
  | .mouseRead buf size elements => do
    let _ ← checked buf
    let (packet, ps2) := ps2ReadMousePacket ps2 poll
    let _ ← ps2MouseRead (packet.map MousePacket.bytes) buf size elements
    pure ps2
  | .keyboardFetch => pure (ps2.keyboardFetch poll).2

/-- The driver after calls one after the other. -/
def Ps2.calls (ps2 : Ps2) (calls : List (Poll × Ps2Call width)) : Except Stop Ps2 :=
  calls.foldlM (fun ps2 call => ps2.call call.1 call.2) ps2

/-- A byte of the mouse arrives that belongs to a packet and does not complete it. -/
def Ps2.Continues (ps2 : Ps2) (poll : Poll) : Prop :=
  ∃ byte, mouseByte poll = some byte ∧ (ps2.packetIndex ≠ 0 ∨ byte &&& 8 ≠ 0) ∧
    ps2.packetIndex + 1 < packetSize

/-- When a call enables the interrupts again. -/
def Ps2Call.Restores (call : Ps2Call width) (ps2 : Ps2) (poll : Poll) : Prop :=
  match call with
  | .keyboardFetch => True
  | .readMousePacket | .mouseRead .. => ps2.Continues poll

variable {ps2 after : Ps2} {poll : Poll}

/-- `ps2_read_mouse_packet` only enables the interrupts in the middle of a packet. -/
theorem readMousePacket_interrupts :
    (ps2ReadMousePacket ps2 poll).2.interrupts = true ↔ ps2.Continues poll := by
  cases arrived : mouseByte poll with
  | none =>
    rw [readMousePacket_idle arrived]
    refine iff_of_false Bool.false_ne_true ?_
    rintro ⟨byte, same, _⟩
    rw [arrived] at same
    cases same
  | some byte =>
    have known : ps2.Continues poll ↔ (ps2.packetIndex ≠ 0 ∨ byte &&& 8 ≠ 0) ∧
        ps2.packetIndex + 1 < packetSize := by
      simp [Ps2.Continues, arrived]
    rw [readMousePacket_byte arrived, known]
    by_cases dropped : ps2.packetIndex = 0 ∧ byte &&& 8 = 0
    · rw [if_pos dropped]
      refine iff_of_false Bool.false_ne_true fun both => ?_
      rcases both.1 with index | begins
      · exact index dropped.1
      · exact begins dropped.2
    · rw [if_neg dropped]
      by_cases complete : packetSize ≤ ps2.packetIndex + 1
      · dsimp only
        rw [if_pos complete]
        exact iff_of_false Bool.false_ne_true fun both => BitVec.not_lt.mpr complete both.2
      · dsimp only
        rw [if_neg complete]
        exact iff_of_true rfl ⟨Decidable.not_and_iff_or_not.mp dropped, BitVec.not_le.mp complete⟩

/-- `ps2_keyboard_fetch` enables the interrupts on all its ways. -/
theorem keyboardFetch_interrupts : (ps2.keyboardFetch poll).2.interrupts = true := by
  unfold Ps2.keyboardFetch
  dsimp only
  split_ifs <;> rfl

/-- A call that returns has enabled the interrupts exactly when it does so on its way. -/
theorem call_interrupts {call : Ps2Call width} (returned : ps2.call poll call = .ok after) :
    after.interrupts = true ↔ call.Restores ps2 poll := by
  cases call with
  | readMousePacket =>
    cases returned
    exact readMousePacket_interrupts
  | mouseRead buf size elements =>
    have same : after = (ps2ReadMousePacket ps2 poll).2 := by
      cases buf with
      | none => cases returned
      | some dest =>
        simp only [Ps2.call, checked, bind, Except.bind] at returned
        cases read : ps2MouseRead ((ps2ReadMousePacket ps2 poll).1.map MousePacket.bytes)
          (some dest) size elements with
        | error reason =>
          rw [read] at returned
          cases returned
        | ok moved =>
          rw [read] at returned
          cases returned
          rfl
    rw [same]
    exact readMousePacket_interrupts
  | keyboardFetch =>
    cases returned
    exact iff_of_true keyboardFetch_interrupts trivial

/-- Calls end with the last one. -/
theorem calls_concat {done : List (Poll × Ps2Call width)} {call : Ps2Call width}
    (returned : ps2.calls (done ++ [(poll, call)]) = .ok after) :
    ∃ before, ps2.calls done = .ok before ∧ before.call poll call = .ok after := by
  unfold Ps2.calls at returned ⊢
  rw [List.foldlM_append] at returned
  cases reached : done.foldlM (fun ps2 call => ps2.call call.1 call.2) ps2 with
  | error reason =>
    rw [reached] at returned
    cases returned
  | ok before =>
    rw [reached] at returned
    refine ⟨before, rfl, ?_⟩
    cases last : before.call poll call with
    | error reason =>
      simp [bind, Except.bind, last] at returned
    | ok state =>
      simpa [bind, Except.bind, last, pure, Except.pure] using returned

/-- Calls on the PS/2 devices: each one that is made with interrupts enabled returns with interrupts
enabled exactly when each call on the mouse reads a byte of a packet but not its last one. -/
theorem interrupts_iff (first : Ps2) (calls : List (Poll × Ps2Call width))
    (enabled : first.interrupts = true) :
    (∀ done poll call before after, done ++ [(poll, call)] <+: calls →
        first.calls done = .ok before → before.interrupts = true →
          before.call poll call = .ok after → after.interrupts = true) ↔
      ∀ done poll call before after, done ++ [(poll, call)] <+: calls →
        first.calls done = .ok before → before.call poll call = .ok after →
          call.Restores before poll := by
  constructor
  · intro keeps
    have kept : ∀ done before, done <+: calls → first.calls done = .ok before →
        before.interrupts = true := by
      intro done
      induction done using List.reverseRecOn with
      | nil =>
        intro before _ reached
        cases reached
        exact enabled
      | append_singleton done last ih =>
        intro after inside reached
        obtain ⟨before, earlier, returned⟩ := calls_concat reached
        exact keeps done last.1 last.2 before after inside earlier
          (ih before ((List.prefix_append _ _).trans inside) earlier) returned
    intro done poll call before after inside reached returned
    have on := kept done before ((List.prefix_append _ _).trans inside) reached
    exact (call_interrupts returned).mp
      (keeps done poll call before after inside reached on returned)
  · intro restores done poll call before after inside reached _ returned
    exact (call_interrupts returned).mpr (restores done poll call before after inside reached
      returned)

/-- The first byte of a packet. -/
theorem interrupts_iff_sample :
    (∀ done poll call before after,
        done ++ [(poll, call)] <+: [((⟨1, 0x21, 8⟩ : Poll), (.readMousePacket : Ps2Call 64))] →
        (Ps2.waiting (fun _ => 0) ⟨false, false⟩ true).calls done = .ok before →
          before.interrupts = true → before.call poll call = .ok after →
            after.interrupts = true) ↔
      ∀ done poll call before after,
        done ++ [(poll, call)] <+: [((⟨1, 0x21, 8⟩ : Poll), (.readMousePacket : Ps2Call 64))] →
        (Ps2.waiting (fun _ => 0) ⟨false, false⟩ true).calls done = .ok before →
          before.call poll call = .ok after → call.Restores before poll :=
  interrupts_iff _ _ rfl

/-- Reading the mouse when no byte is there leaves the interrupts disabled. -/
theorem interrupts_left_disabled :
    ¬ ∀ (before after : Ps2) (poll : Poll) (call : Ps2Call 64), before.interrupts = true →
      before.call poll call = .ok after → after.interrupts = true := by
  intro claim
  have enabled := claim (.waiting (fun _ => 0) ⟨false, false⟩ true) _ ⟨0, 0, 0⟩ .readMousePacket rfl
    rfl
  exact absurd enabled (by decide)

end Interrupts

end Unarddeg
