import Clarmor.Check.Strategies
import Clarmor.Image.CanaryBytes

/-!
# The check of images on the host

`verify_images` reads the canaries of every image into an array of its own, waits for the
reads, and looks for the first byte of each array that is not a canary byte.  An image
with such a byte is reported and repaired.

Over a sequence of launches an overflow is put down to the launch that caused it.
-/

namespace Clarmor

open Word Store

/-- `EnqueueReadImage` to tightly packed pixels, as many bytes as the box has. -/
def Runtime.readImage (rt : Runtime) (handle : Handle) (box : Box) : Option (Block UInt8) :=
  (rt.objects.find handle).bind fun object =>
    match object.kind with
    | .buffer .. => none
    | .image store _ _ pixelSize _ =>
        some
          { len := box.volume * pixelSize
            get n := rt.texels store (box.point (n / pixelSize)) (n % pixelSize) }

/-- The pixels of all images. -/
def Wrapper.texels (w : Wrapper) (a : Nat × Point × Nat) : UInt8 := w.rt.texels a.1 a.2.1 a.2.2

/-- A handle is that of an image with canaries, whose pixels have the bytes that the
detector counts. -/
structure ImageAt (w : Wrapper) (b : Handle) (o : CheckedImage) : Prop where
  listed : ∃ m1, w.table.find b = some m1 ∧ m1.handle = b ∧ m1.isImage = true ∧
    m1.imageDesc = o.memObj.imageDesc ∧ m1.imageFormat = o.format
  stored : ∃ object desc hostPtr, w.rt.objects.find b = some object ∧
    object.kind = .image o.store o.format desc o.pixel hostPtr
  fits : o.Fits

/-- Images with canaries, each in a storage of its own. -/
structure ArmedImages (imageOf : Handle → Option CheckedImage) (w : Wrapper) : Prop where
  own : ∀ b o, imageOf b = some o → ImageAt w b o
  apart : ∀ b b' o o', imageOf b = some o → imageOf b' = some o' → o.store = o'.store → b = b'

variable {w w' : Wrapper} {b : Handle} {o : CheckedImage}
  {imageOf : Handle → Option CheckedImage}

/-! ## Reads -/

/-- Images stay where they are when neither the table nor the objects change. -/
theorem ImageAt.congr (here : ImageAt w b o) (table : w'.table = w.table)
    (objects : w'.rt.objects = w.rt.objects) : ImageAt w' b o where
  listed := by
    rw [table]
    exact here.listed
  stored := by
    rw [objects]
    exact here.stored
  fits := here.fits

theorem ArmedImages.congr (armed : ArmedImages imageOf w) (table : w'.table = w.table)
    (objects : w'.rt.objects = w.rt.objects) : ArmedImages imageOf w' where
  own := fun b o isImage => (armed.own b o isImage).congr table objects
  apart := armed.apart

theorem ImageAt.readImage (here : ImageAt w b o) (box : Box) : w.rt.readImage b box =
    some ⟨box.volume * o.pixel,
      fun n => w.rt.texels o.store (box.point (n / o.pixel)) (n % o.pixel)⟩ := by
  obtain ⟨object, desc, ptr, found, kind⟩ := here.stored
  rw [Runtime.readImage, found, Option.bind_some, kind]

/-- The repair of an image. -/
theorem ImageAt.mended (here : ImageAt w b o) :
    ∃ rt, mendCanaryRegion w b = some { w with rt := rt } ∧
      Painted w.rt rt o.store (IsCanaryPixel o.desc) := by
  obtain ⟨m1, found, handle, isImage, isDesc, isFormat⟩ := here.listed
  obtain ⟨object, desc, ptr, stored, kind⟩ := here.stored
  have isPixel : getImageDataSize m1.imageFormat = o.pixel := congrArg getImageDataSize isFormat
  have repairs := @repairsImage_of_extentsRead m1 o.desc isDesc
    (by rw [isPixel]; exact here.fits.pixels) (CheckedImage.extentsRead here.fits)
    (by rw [isPixel]; exact here.fits.sources)
  obtain ⟨rt, ran, painted⟩ := repairs.repaired w.rt o.store
    ⟨object, desc, _, ptr, by rw [handle]; exact stored, by rw [isFormat]; exact kind⟩
  refine ⟨rt, ?_, painted⟩
  rw [mendCanaryRegion, found]
  dsimp only
  rw [if_pos isImage, ran, Option.map_some]

end Clarmor
