import Qevm.Core.Types

/-!
# The byte memory

Memory grows by whole words, and growing it costs the difference of a quadratic
fee.  A slice is the range of bytes it covers.
-/

namespace Qevm

open Params

/-- The memory of a call frame. -/
structure Memory where
  /-- The bytes. -/
  space : Bytes
  /-- The fee of the current size. -/
  lastGas : Gas

/-- A range of memory bytes. -/
structure Slice where
  /-- The first byte. -/
  start : Nat
  /-- One past the last byte. -/
  stop : Nat
  deriving DecidableEq

namespace Memory

/-- The empty memory. -/
def new : Memory := ⟨[], 0⟩

/-- Number of 32-byte words that cover a number of bytes. -/
def toWordSize (size : UInt64) : UInt64 :=
  if size > (0xffffffffffffffff : UInt64) - 31 then
    ((0xffffffffffffffff : UInt64) >>> 5) + 1
  else
    (size + 31) >>> 5

/-- Grow the memory to a number of bytes and return the fee. -/
def resize (size : U256) : Run Memory Gas := fun self =>
  if size.toNat > maxMemSize then
    .error .outOfMemory self
  else
    let size64 := U256.lowU64 size
    if size64 > UInt64.ofNat self.space.length then
      let newMemSizeWords := toWordSize size64
      let newMemSize := newMemSizeWords <<< 5
      let space := self.space ++
        List.replicate (newMemSize.toNat - self.space.length) 0
      let sqr := newMemSizeWords * newMemSizeWords
      let newGas := newMemSizeWords * gasMemResizeWord + sqr / quadCoefDiv
      .ok (newGas - self.lastGas) ⟨space, newGas⟩
    else
      .ok 0 self

/-- The slice of a region, growing the memory to contain it, and the fee.  The
end of the region is computed with an addition that panics on overflow. -/
def getSliceMut (off len : U256) : Run Memory (Slice × Gas) := do
  let stop ← Procedure.unwrap .arithmeticOverflow (U256.checkedAdd off len)
  let gas ← resize stop
  pure (⟨off.toNat, stop.toNat⟩, gas)

/-- The bytes of a region and the fee of growing the memory to contain it. -/
def getSlice (off len : U256) : Run Memory (Bytes × Gas) := do
  let (slice, gas) ← getSliceMut off len
  let self ← Procedure.read
  pure ((self.space.take slice.stop).drop slice.start, gas)

/-- Overwrite the bytes from the start of a slice on. -/
def write (slice : Slice) (data : Bytes) : Run Memory Unit :=
  Procedure.update fun self =>
    { self with
      space := self.space.take slice.start ++ data ++
        self.space.drop (slice.start + data.length) }

/-- Number of bytes. -/
def len (self : Memory) : Nat := self.space.length

/-- Write as much of the data as fits a region. -/
def set (off len : U256) (data : Bytes) : Run Memory Gas := do
  let (slice, gas) ← getSliceMut off len
  let minLen := min (slice.stop - slice.start) data.length
  write slice (data.take minLen)
  pure gas

end Memory
end Qevm
