import Clarmor.Wrapper.ImageCalls
import Clarmor.Image.FlatCopy
import Clarmor.Api.Images
import Clarmor.Wrapper.Placement

/-!
# The upload of a new image

A canaried image is created without contents, and the flat array is written to it.
The region of the write is made of width, height and depth of the expanded
descriptor; the members of an array are counted in another field.  The runtime takes as
many bytes for a pixel as its format has, and the array holds as many as the detector
counts.
-/

namespace Clarmor

open Word Loop Store

/-! ## The length of the flat array -/

section

variable {env : Env} {rt rt' : Runtime} {context handle : Handle} {flags : MemFlags}
  {format : ImageFormat} {desc : ImageDesc} {data : Option HostArea} {status : ClStatus}

end

/-! ## The region of the upload -/

section

variable {env : Env} {w w' : Wrapper} {context ret : Handle} {flags : MemFlags}
  {format : ImageFormat} {hostPtr : Nat} {status : ClStatus} {call : ImageCall}

end

end Clarmor
