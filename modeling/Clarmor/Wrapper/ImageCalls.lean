import Clarmor.Wrapper.MemObjects

/-!
# The image creations as one

`clCreateImage`, `clCreateImage2D` and `clCreateImage3D` share a body; they differ
in the descriptor that their arguments stand for, in the one that the runtime
gets, and in whether the result of the creation is kept.
-/

namespace Clarmor

/-- A creation of an image, with the arguments that describe it. -/
inductive ImageCall where
  | image (desc : ImageDesc)
  | image2D (imageWidth imageHeight imageRowPitch : Nat)
  | image3D (imageWidth imageHeight imageDepth imageRowPitch imageSlicePitch : Nat)
deriving DecidableEq, Repr

namespace ImageCall

/-- The descriptor that the arguments stand for. -/
def desc : ImageCall → ImageDesc
  | .image desc => desc
  | .image2D imageWidth imageHeight imageRowPitch =>
      ⟨.image2D, imageWidth, imageHeight, 1, 1, imageRowPitch, 0, 0, 0, NULL⟩
  | .image3D imageWidth imageHeight imageDepth imageRowPitch imageSlicePitch =>
      ⟨.image3D, imageWidth, imageHeight, imageDepth, 1, imageRowPitch, imageSlicePitch, 0, 0,
        NULL⟩

/-- The creation itself. -/
def run (env : Env) (w : Wrapper) (context : Handle) (flags : MemFlags) (format : ImageFormat)
    (hostPtr : Nat) : ImageCall → Option (Handle × ClStatus × Wrapper)
  | .image desc => clCreateImage env w context flags format desc hostPtr
  | .image2D imageWidth imageHeight imageRowPitch =>
      clCreateImage2D env w context flags format imageWidth imageHeight imageRowPitch hostPtr
  | .image3D imageWidth imageHeight imageDepth imageRowPitch imageSlicePitch =>
      clCreateImage3D env w context flags format imageWidth imageHeight imageDepth imageRowPitch
        imageSlicePitch hostPtr

/-- The image is not surrounded by canaries. -/
def plain (flags : MemFlags) : ImageCall → Bool
  | .image desc => flags.useHostPtr || desc.buffer != NULL
  | .image2D .. | .image3D .. => flags.useHostPtr

/-- The result of a creation without contents is kept. -/
def keepStatus : ImageCall → Bool
  | .image _ => false
  | .image2D .. | .image3D .. => true

/-- What a canaried creation does with the expanded description. -/
def canaried : ImageCall → MemObj → MemObj
  | .image _ => fun temp =>
      { temp with
        imageDesc := { temp.imageDesc with imageRowPitch := 0, imageSlicePitch := 0 } }
  | .image2D .. | .image3D .. => id

/-- The descriptor for the runtime. -/
def passed : ImageCall → MemObj → ImageDesc
  | .image _ => MemObj.imageDesc
  | .image2D .. | .image3D .. => unpitched

variable (call : ImageCall) {env : Env} {w w' : Wrapper} {context ret : Handle} {flags : MemFlags}
  {format : ImageFormat} {hostPtr : Nat} {status : ClStatus}

theorem run_eq : call.run env w context flags format hostPtr =
    createImageCommon env w flags (imageTemp context flags format call.desc) hostPtr
      (call.plain flags) call.keepStatus call.canaried call.passed := by
  cases call <;> rfl

variable {call}

/-- An image without canaries is created from the description as it is. -/
theorem run_plain (plain : call.plain flags = true)
    (made : call.run env w context flags format hostPtr = some (ret, status, w')) :
    ∃ c, createImageObject env w.rt (imageTemp context flags format call.desc)
        (call.passed (imageTemp context flags format call.desc)) (hostArea w.host hostPtr)
        call.keepStatus = some c ∧
      ret = c.ret ∧ status = c.status ∧ w'.rt = c.rt ∧
      w'.table = clMemInsert w.table
        { c.temp with
          hostPtr := if flags.useHostPtr then hostPtr else NULL
          refCount := 1
          detectorInternalBuffer := false } := by
  rw [run_eq, createImageCommon, if_pos plain] at made
  obtain ⟨c, object, entered⟩ := Option.map_eq_some_iff.mp made
  simp only [enterImage, Prod.mk.injEq] at entered
  obtain ⟨rfl, rfl, rfl⟩ := entered
  exact ⟨c, object, rfl, rfl, rfl, rfl⟩

/-- The description of a canaried image when the runtime is called. -/
def canariedTemp (call : ImageCall) (context : Handle) (flags : MemFlags) (format : ImageFormat) :
    MemObj :=
  call.canaried
    { expandImage (imageTemp context flags format call.desc) with
      flags := { flags with copyHostPtr := true }
      hasCanary := true }

@[simp]
theorem canariedTemp_copyHostPtr :
    (call.canariedTemp context flags format).flags.copyHostPtr = true := by
  cases call <;> rfl

@[simp]
theorem canariedTemp_hasCanary : (call.canariedTemp context flags format).hasCanary = true := by
  cases call <;> rfl

@[simp]
theorem canariedTemp_imageFormat :
    (call.canariedTemp context flags format).imageFormat = format := by
  cases call <;> rfl

/-- A canaried image is created from its expanded description and the flat array. -/
theorem run_canaried (canaries : call.plain flags = false)
    (made : call.run env w context flags format hostPtr = some (ret, status, w')) :
    ∃ fillPtr c, flatImageData (expandImage (imageTemp context flags format call.desc)) w.host
        hostPtr = some fillPtr ∧
      createImageObject env w.rt (call.canariedTemp context flags format)
        (call.passed (call.canariedTemp context flags format)) (some ⟨none, fillPtr.get⟩)
        call.keepStatus = some c ∧
      ret = c.ret ∧ status = c.status ∧ w'.rt = c.rt ∧
      w'.table = clMemInsert w.table
        { c.temp with
          hostPtr := if flags.useHostPtr then hostPtr else NULL
          refCount := 1
          detectorInternalBuffer := false } := by
  rw [run_eq, createImageCommon, if_neg (by simp [canaries])] at made
  obtain ⟨fillPtr, filled, made⟩ := Option.bind_eq_some_iff.mp made
  obtain ⟨c, object, entered⟩ := Option.map_eq_some_iff.mp made
  simp only [enterImage, Prod.mk.injEq] at entered
  obtain ⟨rfl, rfl, rfl⟩ := entered
  exact ⟨fillPtr, c, filled, object, rfl, rfl, rfl, rfl⟩

end ImageCall

/-- The two ways of the runtime's part: with an upload after the creation, and
without. -/
theorem createImageObject_handed {env : Env} {rt : Runtime} {temp : MemObj} {passed : ImageDesc}
    {fillPtr : Option HostArea} {keepStatus : Bool} {c : ImageCreation}
    (made : createImageObject env rt temp passed fillPtr keepStatus = some c)
    (handed : c.ret ≠ NULL) :
    (temp.flags.copyHostPtr = false ∧
        rt.createImage env temp.context temp.flags temp.imageFormat passed fillPtr =
          (c.ret, none, c.rt) ∧ c.status = none ∧ c.temp = temp) ∨
      (temp.flags.copyHostPtr = true ∧ ∃ between data,
        rt.createImage env temp.context { temp.flags with copyHostPtr := false } temp.imageFormat
          passed none = (c.ret, none, between) ∧
        fillPtr = some data ∧
        between.writeImage c.ret ⟨0, 0, 0, temp.imageDesc.imageWidth, temp.imageDesc.imageHeight,
          temp.imageDesc.imageDepth⟩ data.bytes = some c.rt ∧
        c.status = none ∧
        c.temp = { temp with
          flags := { temp.flags with copyHostPtr := false }
          handle := c.ret }) := by
  unfold createImageObject at made
  dsimp only at made
  by_cases copies : temp.flags.copyHostPtr = true
  · rw [if_pos copies] at made
    rcases created : rt.createImage env temp.context { temp.flags with copyHostPtr := false }
      temp.imageFormat passed none with ⟨ret, status, between⟩
    rw [created] at made
    dsimp only at made
    rcases Runtime.createImage_cases created with ⟨null, -⟩ | ⟨rfl, -⟩
    · split_ifs at made
      all_goals first
        | cases made; exact absurd null handed
        | obtain ⟨rt', -, made⟩ := Option.bind_eq_some_iff.mp made
          cases made
          exact absurd null handed
    · rw [ite_self, if_neg (by simp)] at made
      obtain ⟨rt', written, entered⟩ := Option.bind_eq_some_iff.mp made
      obtain ⟨data, filled, uploaded⟩ := Option.bind_eq_some_iff.mp written
      obtain rfl := Option.some.inj entered
      exact Or.inr ⟨copies, between, data, rfl, filled, uploaded, rfl, rfl⟩
  · rw [if_neg copies] at made
    rcases created : rt.createImage env temp.context temp.flags temp.imageFormat passed fillPtr
      with ⟨ret, status, rt'⟩
    rw [created] at made
    obtain rfl := Option.some.inj made
    rcases Runtime.createImage_cases created with ⟨null, -⟩ | ⟨rfl, -⟩
    · exact absurd null handed
    · exact Or.inl ⟨by simpa using copies, rfl, rfl, rfl⟩

end Clarmor
