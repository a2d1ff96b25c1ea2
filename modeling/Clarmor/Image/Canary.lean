import Clarmor.Image.Desc
import Clarmor.Library.Segment

/-!
# Reading the canaries of an image

The canaries of an image are read into one flat array, in the order entries,
rows, slices: for every slice of the data the ends of its rows and then its
extra rows, and last the extra slices.  The copying checker issues these
transfers in `copy_image_canaries` and the host checker in
`read_image_canaries`; both put the event of every transfer into an array that
they size beforehand.
-/

namespace Clarmor

open Word

/-- One transfer of a box of pixels to consecutive bytes. -/
structure Transfer where
  box : Box
  segment : Nat
deriving DecidableEq, Repr

namespace Transfer

/-- A transfer packs its box row by row and slice by slice: the first byte of
the entry of a pixel. -/
def entry (t : Transfer) (d : Nat) (p : Point) : Nat := t.segment + t.box.index p * d

/-- The bytes that a transfer writes, as start and length. -/
def span (t : Transfer) (d : Nat) : Nat × Nat := (t.segment, t.box.volume * d)

end Transfer

/-- What a slot of an event array receives: the event of a transfer, or a
completed user event where there is nothing to transfer. -/
inductive SlotEvent where
  | transfer (t : Transfer)
  | userEvent
deriving DecidableEq, Repr

/-- One assignment to a slot of an event array. -/
structure SlotWrite where
  slot : Nat
  event : SlotEvent
deriving DecidableEq, Repr

/-- The transfers among the events, in the order of their issue. -/
def transfers (writes : List SlotWrite) : List Transfer :=
  writes.filterMap fun w =>
    match w.event with
    | .transfer t => some t
    | .userEvent => none

/-- The box of the canary entries at the end of one row. -/
def endOfRow (s : ImageDims) (j k : Nat) : Box := ⟨s.iDat, j, k, IMAGE_POISON_WIDTH, 1, 1⟩

/-- The box of the canary rows at the end of one slice. -/
def endOfSlice (s : ImageDims) (k : Nat) : Box := ⟨0, s.jDat, k, s.iLim, IMAGE_POISON_HEIGHT, 1⟩

/-- The box of the canary slices. -/
def canarySlice (s : ImageDims) : Box := ⟨0, 0, s.kDat, s.iLim, s.jLim, IMAGE_POISON_DEPTH⟩

section Pipelines

variable (a : Arith)

/-- Position of the end of row `j` in slice `k`, in pixels. -/
def rowSegment (s : ImageDims) (j k : Nat) : Nat :=
  a.wrap32 (k * (s.jDat * IMAGE_POISON_WIDTH + IMAGE_POISON_HEIGHT * s.iLim) +
    j * IMAGE_POISON_WIDTH)

/-- Position of the extra rows of slice `k`, in pixels. -/
def sliceSegment (s : ImageDims) (k : Nat) : Nat :=
  a.wrap32 (k * IMAGE_POISON_HEIGHT * s.iLim + (k + 1) * (s.jDat * IMAGE_POISON_WIDTH))

/-- Position of the extra slices, in pixels. -/
def depthSegment (s : ImageDims) : Nat :=
  a.wrap32 (s.kDat * IMAGE_POISON_HEIGHT * s.iLim + s.kDat * s.jDat * IMAGE_POISON_WIDTH)

/-! ## The copying checker -/

/-- The event slots that `copy_image_canaries` allocates. -/
def copyImageEvents (s : ImageDims) : Nat :=
  if s.kLim > 1 then a.wrap32 (s.kDat * s.jDat + s.kDat + 1)
  else if s.jLim > 1 then a.wrap32 (s.kDat * s.jDat + s.kDat)
  else a.wrap32 (s.kDat * s.jDat)

/-- The body of the loop over the slices of the data. -/
def copySlice (s : ImageDims) (d offset k : Nat) : List SlotWrite :=
  ((List.range s.jDat).flatMap fun j =>
    if s.iLim > 1 then
      [⟨a.wrap32 (k * (s.jDat + 1) + j),
        .transfer ⟨endOfRow s j k, a.wrap32 (offset + rowSegment a s j k * d)⟩⟩]
    else []) ++
  if s.jLim > 1 then
    [⟨a.wrap32 (k * (s.jDat + 1) + s.jDat),
      .transfer ⟨endOfSlice s k, a.wrap32 (offset + sliceSegment a s k * d)⟩⟩]
  else []

/-- `copy_image_canaries`: the events in the order in which they are stored.
The limits are taken from the descriptor as `get_image_dimensions` takes them. -/
def copyImageCanaries (img : MemObj) (offset : Nat) : List SlotWrite :=
  let s := getImageDimensions a img.imageDesc
  let d := getImageDataSize img.imageFormat
  (List.range s.kDat).flatMap (copySlice a s d offset) ++
  if s.kLim > 1 then
    [⟨a.wrap32 (s.kDat * (s.jDat + 1)),
      .transfer ⟨canarySlice s, a.wrap32 (offset + depthSegment a s * d)⟩⟩]
  else []

/-! ## The host checker -/

/-- `copy_end_of_row`. -/
def copyEndOfRow (s : ImageDims) (d j k : Nat) : SlotEvent :=
  if s.iLim > 1 then .transfer ⟨endOfRow s j k, rowSegment a s j k * d⟩ else .userEvent

/-- `copy_end_of_slice`. -/
def copyEndOfSlice (s : ImageDims) (d k : Nat) : SlotEvent :=
  if s.jLim > 1 then .transfer ⟨endOfSlice s k, sliceSegment a s k * d⟩ else .userEvent

/-- `copy_canary_slice`. -/
def copyCanarySlice (s : ImageDims) (d : Nat) : SlotEvent :=
  if s.kLim > 1 then .transfer ⟨canarySlice s, depthSegment a s * d⟩ else .userEvent

/-- The events that `read_image_canaries` stores for one slice of the data. -/
def readSlice (s : ImageDims) (d k : Nat) : List SlotEvent :=
  ((List.range s.jDat).map fun j => copyEndOfRow a s d j k) ++ [copyEndOfSlice a s d k]

/-- `read_image_canaries`: a running slot number is advanced after every event. -/
def readImageCanaries (img : MemObj) : List SlotWrite :=
  let s := getImageDimensions a img.imageDesc
  let d := getImageDataSize img.imageFormat
  let events := (List.range s.kDat).flatMap (readSlice a s d) ++ [copyCanarySlice a s d]
  events.mapIdx fun outEvtNum event => ⟨a.wrap32 outEvtNum, event⟩

/-- `number_of_image_reads`: the slots that one image gets in `verify_images`. -/
def numberOfImageReads (jDat kDat : Nat) : Nat := a.wrap32 (kDat * jDat + kDat + 1)

/-- The bytes that `read_image_canaries` allocates for an image. -/
def imageCanaryLen (img : MemObj) : Nat :=
  let s := getImageDimensions a img.imageDesc
  getImageCanarySize a img.imageDesc.imageType (getImageDataSize img.imageFormat)
    s.iLim s.jLim s.jDat s.kDat

end Pipelines

end Clarmor
