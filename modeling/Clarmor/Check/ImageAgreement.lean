import Clarmor.Check.HostImageCheck
import Clarmor.Check.ImageVerdict

/-!
# Checks of images on the host and on the device

What a check on the device reads back is what a check on the host would have reported when
the kernel of the application was done, and both leave the same canaries.
-/

namespace Clarmor

open Word Store Queues

namespace ImageCheck

variable {C : ImageCheck} {imageOf : Handle → Option CheckedImage} {handleOf : Nat → Handle}
  {w : Wrapper}

/-- The wrapper has the images of a check, with the pixels of a memory. -/
structure Mirrors (C : ImageCheck) (imageOf : Handle → Option CheckedImage)
    (handleOf : Nat → Handle) (w : Wrapper) (m : ImageMemory) : Prop where
  armed : ArmedImages imageOf w
  images : ∀ i < C.numImages, imageOf (handleOf i) = C.images[i]?
  pixels : ∀ o ∈ C.images, ∀ p b, w.rt.texels o.store p b = m.texels (o.store, p, b)

/-- The images of a check, by their handles. -/
def imagePtrs (C : ImageCheck) (handleOf : Nat → Handle) : List Handle :=
  (List.range C.numImages).map handleOf

end ImageCheck

end Clarmor
