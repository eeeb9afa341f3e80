import Unarddeg.Kernel.Vfs.Seek
import Unarddeg.Library.Memory

/-!
# The frame buffer

`modules/vga/main.c`. `ParseMBI` takes the frame buffer from the tags of the boot information, and
the node `/dev/framebuffer` copies to its address and the position of the node. Nothing compares
the position with the size; `stores_inside_iff` says of a run when its stores are in the frame
buffer.
-/

namespace Unarddeg.Vga

open Library

variable {width : Nat}

/-- The globals of the module. -/
structure FrameBuffer (width : Nat) where
  /-- `FrameBufferAddress`. -/
  frameBufferAddress : BitVec width
  /-- `FrameBufferWidth`. -/
  frameBufferWidth : BitVec 32
  /-- `FrameBufferHeight`. -/
  frameBufferHeight : BitVec 32
  /-- `FrameBufferPitch`. -/
  frameBufferPitch : BitVec 32
  /-- `FrameBufferBPP`. -/
  frameBufferBPP : BitVec 8

/-- The globals before the module runs. -/
def FrameBuffer.zero (width : Nat) : FrameBuffer width := ⟨0, 0, 0, 0, 0⟩

/-- The fields of a `multiboot_tag_framebuffer`. -/
def frameBufferOf (tag : Nat → BitVec 8) : FrameBuffer width where
  frameBufferAddress := (little 64 (slice tag 8)).setWidth width
  frameBufferPitch := little 32 (slice tag 16)
  frameBufferWidth := little 32 (slice tag 20)
  frameBufferHeight := little 32 (slice tag 24)
  frameBufferBPP := little 8 (slice tag 28)

/-- The loop of `ParseMBI` over the tags from an offset on. -/
def parseTags (mbi : Nat → BitVec 8) : (fuel : Nat) → (offset : BitVec 32) →
    Kernel (FrameBuffer width) Unit
  | 0, _ => throw .hang
  | fuel + 1, offset => do
    let tag := slice mbi offset.toNat
    let type := little 32 tag
    if type = 0 then pure ()
    else
      onlyIf (type = 8) (set (frameBufferOf tag : FrameBuffer width))
      parseTags mbi fuel (offset + ((little 32 (slice tag 4) + 7) &&& ~~~7))

/-- `ParseMBI`. -/
def parseMBI (mbi : Nat → BitVec 8) (fuel : Nat) : Kernel (FrameBuffer width) Unit :=
  parseTags mbi fuel 8

/-- The node `/dev/framebuffer`, the globals, and what was stored through it. -/
structure VgaNode (width : Nat) where
  /-- The globals. -/
  frameBuffer : FrameBuffer width
  /-- `FileOffset`. -/
  fileOffset : BitVec width
  /-- The stores of `memcpy` so far: address and byte, the first one first. -/
  stores : List (BitVec width × BitVec 8)

/-- The stores of `memcpy`. -/
def copied (destination : BitVec width) (source : Nat → BitVec 8) (len : Nat) :
    List (BitVec width × BitVec 8) :=
  (List.range len).map fun i => (destination + BitVec.ofNat width i, source i)

/-- `Write`. -/
def write (buf : Option (Nat → BitVec 8)) (size elements : BitVec width) :
    Kernel (VgaNode width) (BitVec 32) := do
  match buf with
  | none => panicWith .nullPointerDereference
  | some source =>
    let node ← get
    let bytes := size * elements
    let destination := node.frameBuffer.frameBufferAddress + node.fileOffset
    panicIf (destination = 0) .nullPointerDereference
    set { node with
      fileOffset := node.fileOffset + bytes
      stores := node.stores ++ copied destination source bytes.toNat }
    pure (elements.setWidth 32)

/-- `Read`. -/
def read : Kernel (VgaNode width) (BitVec 32) := panicWith .todo

/-! ## Runs of seeks and writes -/

/-- A call on the node. -/
inductive FileCall (width : Nat)
  /-- `lseek`. -/
  | lseek (offset : BitVec width) (whence : Int)
  /-- A call of `Write`. -/
  | write (buf : Nat → BitVec 8) (size elements : BitVec width)

/-- A call returns. -/
def Served (node : VgaNode width) : FileCall width → VgaNode width → Prop
  | .lseek offset whence, next => ∃ moved, seekTo node.fileOffset offset whence = .ok moved ∧
      next = { node with fileOffset := moved }
  | .write buf size elements, next => ∃ value, write (some buf) size elements node = .ok value next

/-- The position after a call that returns. -/
def FileCall.moved (position : BitVec width) : FileCall width → BitVec width
  | .lseek offset whence => (seekTo position offset whence).toOption.getD position
  | .write _ size elements => position + size * elements

/-- The number of bytes of the frame buffer. -/
def FrameBuffer.size (frameBuffer : FrameBuffer width) : Nat :=
  frameBuffer.frameBufferPitch.toNat * frameBuffer.frameBufferHeight.toNat

/-- An address is in the frame buffer. -/
def FrameBuffer.Contains (frameBuffer : FrameBuffer width) (address : BitVec width) : Prop :=
  InInterval frameBuffer.frameBufferAddress frameBuffer.size address

/-- A call at a position is a seek, writes nothing or writes a part of the frame buffer, unless the
frame buffer is all of the memory. -/
def FrameBuffer.HoldsCall (frameBuffer : FrameBuffer width) (position : BitVec width) :
    FileCall width → Prop
  | .lseek _ _ => True
  | .write _ size elements => (size * elements).toNat = 0 ∨
      PartOf frameBuffer.frameBufferAddress frameBuffer.size position (size * elements).toNat ∨
      frameBuffer.frameBufferAddress = 0 ∧ 2 ^ width ≤ frameBuffer.size

/-- Each of some calls does so at the position where the calls before it end. -/
def FrameBuffer.HoldsCalls (frameBuffer : FrameBuffer width) :
    (position : BitVec width) → List (FileCall width) → Prop
  | _, [] => True
  | position, call :: calls => frameBuffer.HoldsCall position call ∧
      frameBuffer.HoldsCalls (call.moved position) calls

section Calls

variable {frameBuffer : FrameBuffer width} {node next last : VgaNode width} {call : FileCall width}
  {calls : List (FileCall width)} {position : BitVec width}

/-- One more call at the end. -/
theorem holdsCalls_snoc : frameBuffer.HoldsCalls position (calls ++ [call]) ↔
    frameBuffer.HoldsCalls position calls ∧
      frameBuffer.HoldsCall (calls.foldl FileCall.moved position) call := by
  induction calls generalizing position with
  | nil => simp [FrameBuffer.HoldsCalls]
  | cons first calls ih =>
    simp only [List.cons_append, FrameBuffer.HoldsCalls, ih, List.foldl_cons, and_assoc]

/-- `Write` stores behind what was stored and moves the position. -/
theorem write_ok {buf : Nat → BitVec 8} {size elements : BitVec width} {value : BitVec 32}
    (returned : write (some buf) size elements node = .ok value next) :
    next = { node with
      fileOffset := node.fileOffset + size * elements
      stores := node.stores ++
        copied (node.frameBuffer.frameBufferAddress + node.fileOffset) buf
          (size * elements).toNat } := by
  simp only [write, bind_ok, get_ok, panicIf_ok, set_ok, pure_ok] at returned
  obtain ⟨_, _, ⟨rfl, rfl⟩, _, _, ⟨_, rfl⟩, _, _, rfl, _, rfl⟩ := returned
  rfl

/-- The stores of a copy are in the frame buffer when their addresses are. -/
theorem copied_inside {source : Nat → BitVec 8} {destination : BitVec width} {len : Nat} :
    (∀ store ∈ copied destination source len, frameBuffer.Contains store.1) ↔
      ∀ index < len, frameBuffer.Contains (destination + .ofNat width index) := by
  simp [copied]

/-- A call keeps the globals, moves the position, and stores inside when it is held. -/
theorem Served.step (served : Served node call next) :
    next.frameBuffer = node.frameBuffer ∧ next.fileOffset = call.moved node.fileOffset ∧
      ((∀ store ∈ next.stores, node.frameBuffer.Contains store.1) ↔
        (∀ store ∈ node.stores, node.frameBuffer.Contains store.1) ∧
          node.frameBuffer.HoldsCall node.fileOffset call) := by
  cases call with
  | lseek offset whence =>
    obtain ⟨moved, sought, rfl⟩ := served
    refine ⟨rfl, ?_, (and_iff_left trivial).symm⟩
    rw [FileCall.moved, sought]
    rfl
  | write buf size elements =>
    obtain ⟨value, returned⟩ := served
    rw [write_ok returned]
    refine ⟨rfl, rfl, ?_⟩
    dsimp only
    rw [List.forall_mem_append, copied_inside]
    exact and_congr_right fun _ => forall_inInterval_iff

/-- A run keeps the globals, moves the position, and stores inside when its calls are held. -/
theorem run_stores (run : Run Served node calls last) :
    last.frameBuffer = node.frameBuffer ∧
      last.fileOffset = calls.foldl FileCall.moved node.fileOffset ∧
      ((∀ store ∈ last.stores, node.frameBuffer.Contains store.1) ↔
        (∀ store ∈ node.stores, node.frameBuffer.Contains store.1) ∧
          node.frameBuffer.HoldsCalls node.fileOffset calls) := by
  induction run with
  | nil => exact ⟨rfl, rfl, (and_iff_left trivial).symm⟩
  | snoc _ served ih =>
    obtain ⟨same, position, before⟩ := ih
    obtain ⟨kept, moved, stores⟩ := served.step
    rw [same] at kept stores
    refine ⟨kept, ?_, ?_⟩
    · rw [moved, position, List.foldl_append]
      rfl
    · rw [stores, before, holdsCalls_snoc, position, and_assoc]

/-- **Frame buffer.** In every run of seeks and writes, from the node that `Init` made, all stores
are in the frame buffer if and only if each write writes nothing or a part of the frame buffer at
its position, or the frame buffer is all of the memory. -/
theorem stores_inside_iff (run : Run Served ⟨frameBuffer, 0, []⟩ calls last) :
    (∀ store ∈ last.stores, frameBuffer.Contains store.1) ↔ frameBuffer.HoldsCalls 0 calls := by
  have stores := (run_stores run).2.2
  rwa [and_iff_right (List.forall_mem_nil _)] at stores

end Calls

/-- A text mode of 25 rows of 160 bytes. -/
def textModeInfo : List (BitVec 8) :=
  [0x30, 0, 0, 0, 0, 0, 0, 0,
    8, 0, 0, 0, 32, 0, 0, 0,
    0x00, 0x80, 0x0B, 0, 0, 0, 0, 0, 160, 0, 0, 0, 80, 0, 0, 0, 25, 0, 0, 0, 16, 2, 0, 0,
    0, 0, 0, 0, 8, 0, 0, 0]

/-- Its frame buffer. -/
def textMode : FrameBuffer 32 := ⟨0xB8000, 80, 25, 160, 16⟩

/-- It is what `ParseMBI` finds. -/
theorem textMode_parsed : parseMBI (textModeInfo.getD · 0) 3 (.zero 32) = .ok () textMode := by
  rfl

/-- A seek, and a byte there. -/
def seekAndWrite (offset : BitVec 32) : List (FileCall 32) :=
  [.lseek offset seekSet, .write (fun _ => 7) 1 1]

/-- The node after it. -/
def written (offset : BitVec 32) : VgaNode 32 := ⟨textMode, offset + 1, [(0xB8000 + offset, 7)]⟩

/-- The last byte of the frame buffer is written. -/
theorem stores_inside_iff_last :
    (∀ store ∈ (written 3999).stores, textMode.Contains store.1) ↔
      textMode.HoldsCalls 0 (seekAndWrite 3999) :=
  stores_inside_iff (.snoc (.snoc (.nil _) ⟨3999, rfl, rfl⟩) ⟨1, rfl⟩)

/-- A byte behind the frame buffer is written. -/
theorem stored_behind : ¬ ∀ (mbi : Nat → BitVec 8) (frameBuffer : FrameBuffer 32)
    (calls : List (FileCall 32)) (last : VgaNode 32),
    parseMBI mbi 3 (.zero 32) = .ok () frameBuffer → Run Served ⟨frameBuffer, 0, []⟩ calls last →
    ∀ store ∈ last.stores, frameBuffer.Contains store.1 := by
  intro claim
  have run : Run Served ⟨textMode, 0, []⟩ (seekAndWrite 4000) (written 4000) :=
    .snoc (.snoc (.nil _) ⟨4000, rfl, rfl⟩) ⟨1, rfl⟩
  have inside := claim _ _ _ _ textMode_parsed run (0xB8000 + 4000, 7) List.mem_cons_self
  exact absurd inside.2 (by decide)

end Unarddeg.Vga
