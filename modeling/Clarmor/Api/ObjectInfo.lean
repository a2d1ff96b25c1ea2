import Clarmor.Wrapper.ImageCalls
import Clarmor.Wrapper.Placement
import Clarmor.Api.Images

/-!
# What the application reads of its objects

`clGetMemObjectInfo` and `clGetImageInfo` hide the canaries: they take back what
`expandLastDimForFill` added, by the stored extents.  Only the first of them looks
whether there are canaries.
-/

namespace Clarmor

open Word

/-- `cl_mem_info`, as far as `clGetMemObjectInfo` looks at it. -/
inductive MemInfo where
  | size
  | other (paramName : Nat)
deriving DecidableEq, Repr

/-- `cl_image_info`. -/
inductive ImageInfo where
  | dim (dim : ImageDim)
  | other (paramName : Nat)
deriving DecidableEq, Repr

/-- `clGetMemObjectInfo`, from what `param_value` points to when the runtime has answered.
A `NULL` that the code writes to is a fault. -/
def clGetMemObjectInfo (w : Wrapper) (memobj : Handle) (paramName : MemInfo)
    (paramValue : Option Nat) : Option (Option Nat) :=
  if paramName = .size then
    match w.table.find memobj with
    | none => some paramValue
    | some m1 =>
        if m1.hasCanary then
          paramValue.map fun _ => some <|
            if m1.isImage then
              let w := m1.imageDesc.imageWidth
              let h := m1.imageDesc.imageHeight
              let d := m1.imageDesc.imageDepth
              let a := m1.imageDesc.imageArraySize
              let a :=
                if a > 1 then
                  if h > 1 then sub64 a IMAGE_POISON_DEPTH else sub64 a IMAGE_POISON_HEIGHT
                else a
              let w := if w > 1 then sub64 w IMAGE_POISON_WIDTH else w
              let h := if h > 1 then sub64 h IMAGE_POISON_HEIGHT else h
              let d := if d > 1 then sub64 d IMAGE_POISON_DEPTH else d
              u64 (w * h * d * a * getImageDataSize m1.imageFormat)
            else m1.size
        else some paramValue
  else some paramValue

/-- `clGetImageInfo`, from what `param_value` points to when the runtime has answered.  For
an extent the code reads it, `NULL` or not. -/
def clGetImageInfo (w : Wrapper) (image : Handle) (paramName : ImageInfo)
    (paramValue : Option Nat) : Option (Option Nat) :=
  match paramName with
  | .other _ => some paramValue
  | .dim dim =>
      paramValue.map fun value => some <|
        if value ≠ 0 then
          match w.table.find image with
          | none => value
          | some m1 =>
              if m1.isImage then
                let w := m1.imageDesc.imageWidth
                let h := m1.imageDesc.imageHeight
                let d := m1.imageDesc.imageDepth
                let a := m1.imageDesc.imageArraySize
                match dim with
                | .width => if w > 1 then sub64 w IMAGE_POISON_WIDTH else w
                | .height => if h > 1 then sub64 h IMAGE_POISON_HEIGHT else h
                | .depth => if d > 1 then sub64 d IMAGE_POISON_DEPTH else d
                | .arraySize =>
                    if a > 1 then
                      if h > 1 then sub64 a IMAGE_POISON_DEPTH else sub64 a IMAGE_POISON_HEIGHT
                    else a
              else value
        else value

/-- `GetImageInfo` of the runtime: zero for an extent that the image lacks. -/
def Runtime.imageInfo (rt : Runtime) (image : Handle) (dim : ImageDim) : Option Nat :=
  (rt.objects.find image).bind fun object =>
    match object.kind with
    | .buffer .. => none
    | .image _ _ desc _ _ => some (if desc.imageType.Has dim then desc.extent dim else 0)

/-- What the application asked for. -/
inductive Request where
  | buffer (size : Nat)
  | image (format : ImageFormat) (desc : ImageDesc)
deriving DecidableEq, Repr

namespace Request

/-- The bytes that were asked for, with the pixels of the runtime. -/
def bytes (pixels : PixelSizes) : Request → Nat
  | .buffer size => size
  | .image format desc => (imageBox desc).volume * pixels.size format

/-- An extent that was asked for. -/
def extent : Request → ImageDim → Option Nat
  | .buffer _, _ => none
  | .image _ desc, dim => if desc.imageType.Has dim then some (desc.extent dim) else none

end Request

/-- The creations of memory objects, with what they were asked for. -/
inductive CreatedBy (env : Env) (w : Wrapper) : Request → Handle → Wrapper → Prop
  | buffer {context : Handle} {flags : MemFlags} {size hostPtr : Nat} {ret : Handle}
      {status : ClStatus} {w' : Wrapper} :
      clCreateBuffer env w context flags size hostPtr = some (ret, status, w') →
      CreatedBy env w (.buffer size) ret w'
  | subBuffer {buffer : Handle} {flags : MemFlags} {origin size : Nat} {ret : Handle}
      {status : ClStatus} {w' : Wrapper} :
      clCreateSubBuffer env w buffer flags origin size = some (ret, status, w') →
      CreatedBy env w (.buffer size) ret w'
  | image {context : Handle} {flags : MemFlags} {format : ImageFormat} {hostPtr : Nat}
      {call : ImageCall} {ret : Handle} {status : ClStatus} {w' : Wrapper} :
      call.run env w context flags format hostPtr = some (ret, status, w') →
      CreatedBy env w (.image format call.desc) ret w'

/-- The entry of a handle and its object are those of an earlier state, apart from
their reference counts. -/
structure Kept (before w : Wrapper) (handle : Handle) (m1 : MemObj) : Prop where
  entry : w.table.find handle = some m1
  stored : ∃ m, before.table.find handle = some m ∧ m1 = { m with refCount := m1.refCount }
  object : ∃ object object', before.rt.objects.find handle = some object ∧
    w.rt.objects.find handle = some object' ∧ object'.kind = object.kind

/-- What `param_value` points to, if one is given. -/
def placed (given : Bool) (value : Nat) : Option Nat := if given then some value else none

/-- The queries, with a `param_value` or without, give the application what it asked for. -/
structure SeesRequest (pixels : PixelSizes) (w : Wrapper) (handle : Handle) (m1 : MemObj)
    (request : Request) (given : Bool) : Prop where
  memSize : m1.hasCanary = true → ∀ value,
    clGetMemObjectInfo w handle .size (placed given value) =
      some (placed given (request.bytes pixels))
  extents : ∀ dim asked value, request.extent dim = some asked →
    w.rt.imageInfo handle dim = some value →
      clGetImageInfo w handle (.dim dim) (placed given value) = some (placed given asked)

/-! ## What a creation leaves under its handle -/

/-- The entry and the object of an image under the handle of the application. -/
structure ImageEntered (w : Wrapper) (handle : Handle) (m1 : MemObj) (format : ImageFormat)
    (desc : ImageDesc) (plain : Bool) : Prop where
  stored : StoredImage m1 desc
  imageFormat : m1.imageFormat = format
  canary : m1.hasCanary = !plain
  object : ∃ object store passed pixelSize hostPtr, w.rt.objects.find handle = some object ∧
    object.kind = .image store format passed pixelSize hostPtr ∧
    passed.imageType = desc.imageType ∧
    ∀ dim, passed.extent dim = m1.imageDesc.extent dim

section

variable {env : Env} {w w' : Wrapper} {context ret : Handle} {flags : MemFlags}
  {format : ImageFormat} {hostPtr : Nat} {status : ClStatus} {call : ImageCall} {m1 : MemObj}

theorem ImageCall.canaried_keeps (call : ImageCall) (temp : MemObj) :
    KeepsExtents temp (call.canaried temp) := by
  cases call <;> exact ⟨rfl, rfl, rfl, rfl⟩

theorem ImageCall.passed_extents (call : ImageCall) (temp : MemObj) :
    (call.passed temp).imageType = temp.imageDesc.imageType ∧
      ∀ dim, (call.passed temp).extent dim = temp.imageDesc.extent dim := by
  cases call <;> exact ⟨rfl, fun dim => by cases dim <;> rfl⟩

/-- The description of an image that is written after its creation is entered under
its handle. -/
theorem imageEntered_of_upload {temp : MemObj} {passed : ImageDesc} {between : Runtime}
    {box : Box} {data : Nat → UInt8} {c : ImageCreation} {desc : ImageDesc}
    (live : w.KeysLive) (handed : c.ret ≠ NULL)
    (stored : m1.hasCanary = temp.hasCanary → StoredImage temp desc)
    (extents : passed.imageType = temp.imageDesc.imageType ∧
      ∀ dim, passed.extent dim = temp.imageDesc.extent dim)
    (created : w.rt.createImage env temp.context { temp.flags with copyHostPtr := false }
      temp.imageFormat passed none = (c.ret, none, between))
    (written : between.writeImage c.ret box data = some c.rt)
    (described : c.temp = { temp with
      flags := { temp.flags with copyHostPtr := false }
      handle := c.ret })
    (rt : w'.rt = c.rt)
    (table : w'.table = clMemInsert w.table
      { c.temp with
        hostPtr := if flags.useHostPtr then hostPtr else NULL
        refCount := 1
        detectorInternalBuffer := false })
    (entry : w'.table.find c.ret = some m1) :
    ImageEntered w' c.ret m1 temp.imageFormat desc (!temp.hasCanary) := by
  rcases Runtime.createImage_cases created with ⟨null, -⟩ | ⟨-, made⟩
  · exact absurd null handed
  have object := Table.find_insert_fresh made.fresh
    (v := ⟨w.rt.newImage env { temp.flags with copyHostPtr := false } temp.imageFormat passed none,
      temp.context, 1⟩)
  rw [← made.objects, ← (Runtime.writeImage_objects written).1, ← rt] at object
  rw [table, described, clMemInsert,
    Table.find_insert_fresh (live.not_key made.fresh handed), Option.some.injEq] at entry
  obtain rfl := entry
  have stored := stored rfl
  exact ⟨stored.of_keeps ⟨rfl, rfl, rfl, rfl⟩, rfl, (Bool.not_not _).symm,
    ⟨_, _, passed, _, _, object, rfl, extents.1.trans stored.imageType, extents.2⟩⟩

/-- What an image creation leaves under the handle of the application. -/
theorem imageEntered (live : w.KeysLive)
    (fits : m1.hasCanary = true → call.desc.ExpandsInSizeT)
    (made : call.run env w context flags format hostPtr = some (ret, status, w'))
    (handed : ret ≠ NULL) (entry : w'.table.find ret = some m1) :
    ImageEntered w' ret m1 format call.desc (call.plain flags) := by
  cases plain : call.plain flags with
  | true =>
      obtain ⟨c, object, rfl, -, rt, table⟩ := ImageCall.run_plain plain made
      rcases createImageObject_handed object handed with
        ⟨-, created, -, described⟩ | ⟨-, between, data, created, -, written, -, described⟩
      · -- The description was entered under `NULL`.
        rcases Runtime.createImage_cases created with ⟨null, -⟩ | ⟨-, new⟩
        · exact absurd null handed
        rw [table, described, clMemInsert] at entry
        dsimp only [imageTemp] at entry
        rw [Table.find_insert_of_ne handed, live.not_key new.fresh handed] at entry
        contradiction
      · exact imageEntered_of_upload live handed
          (fun _ => storedImage_temp context flags format call.desc) (call.passed_extents _)
          created written described rt table entry
  | false =>
      obtain ⟨fillPtr, c, -, object, rfl, -, rt, table⟩ := ImageCall.run_canaried plain made
      have stored : m1.hasCanary = (call.canariedTemp context flags format).hasCanary →
          StoredImage (call.canariedTemp context flags format) call.desc := by
        intro same
        rw [ImageCall.canariedTemp_hasCanary] at same
        exact (storedImage_expand (fits same)).of_keeps (call.canaried_keeps _)
      rcases createImageObject_handed object handed with
        ⟨copies, -⟩ | ⟨-, between, data, created, -, written, -, described⟩
      · simp at copies
      · have entered := imageEntered_of_upload live handed stored (call.passed_extents _) created
          written described rt table entry
        rwa [ImageCall.canariedTemp_hasCanary, ImageCall.canariedTemp_imageFormat] at entered

/-- The description of a buffer with canaries has the size that was asked for. -/
structure BufferEntered (m1 : MemObj) (size : Nat) : Prop where
  notImage : m1.isImage = false
  size : m1.hasCanary = true → m1.size = size

theorem bufferEntered {size : Nat} (live : w.KeysLive)
    (made : clCreateBuffer env w context flags size hostPtr = some (ret, status, w'))
    (handed : ret ≠ NULL) (entry : w'.table.find ret = some m1) : BufferEntered m1 size := by
  have described : ∀ mainBuff flags',
      (bufferObject ret mainBuff context flags' size hostPtr).handle = ret ∧
        BufferEntered (bufferObject ret mainBuff context flags' size hostPtr) size := by
    intro mainBuff flags'
    unfold bufferObject
    split_ifs
    · exact ⟨rfl, rfl, fun canary => absurd canary Bool.false_ne_true⟩
    · exact ⟨rfl, rfl, fun _ => rfl⟩
  have fromTable : ∀ {m : MemObj}, w.rt.objects.find ret = none →
      w'.table = clMemInsert w.table m → m.handle = ret → m1 = m := by
    intro m fresh table handle
    rw [table, clMemInsert, handle, Table.find_insert_fresh (live.not_key fresh handed),
      Option.some.injEq] at entry
    exact entry.symm
  rcases clCreateBuffer_cases made with ⟨null, -⟩ | ⟨-, created, table⟩ |
    ⟨-, mainBuff, fillPtr, -, backed, table⟩
  · exact absurd null handed
  · rw [fromTable created.fresh table (described _ _).1]
    exact (described _ _).2
  · rw [fromTable backed.fresh table (described _ _).1]
    exact (described _ _).2

/-- A sub-buffer has no canaries of its own. -/
theorem subBufferEntered {buffer : Handle} {origin size : Nat} (live : w.KeysLive)
    (made : clCreateSubBuffer env w buffer flags origin size = some (ret, status, w'))
    (handed : ret ≠ NULL) (entry : w'.table.find ret = some m1) : BufferEntered m1 size := by
  unfold clCreateSubBuffer at made
  obtain ⟨superBuff, -, made⟩ := Option.bind_eq_some_iff.mp made
  dsimp only at made
  rcases sub : w.rt.createSubBuffer env
      (if superBuff.hasCanary then superBuff.mainBuff else buffer)
      (if superBuff.hasCanary then u64 (origin + POISON_FILL_LENGTH) else origin) size with
    ⟨handle, subStatus, rt⟩
  rw [sub] at made
  dsimp only at made
  obtain ⟨-, ⟨rfl, -⟩ | ⟨-, window, parent, -, -, -, created⟩⟩ := Runtime.createSubBuffer_cases sub
  · simp only [if_true, Option.some.injEq, Prod.mk.injEq] at made
    exact absurd made.1.symm handed
  · rw [if_neg created.notNull] at made
    simp only [Option.some.injEq, Prod.mk.injEq] at made
    obtain ⟨rfl, -, rfl⟩ := made
    rw [clMemInsert, Table.find_insert_fresh (live.not_key created.fresh handed),
      Option.some.injEq] at entry
    obtain rfl := entry
    exact ⟨rfl, fun canary => absurd canary Bool.false_ne_true⟩

end

/-! ## Taking the canaries back -/

/-- What a stored extent is taken for. -/
def takeBack (desc : ImageDesc) : ImageDim → Nat
  | .width =>
      if desc.imageWidth > 1 then sub64 desc.imageWidth IMAGE_POISON_WIDTH else desc.imageWidth
  | .height =>
      if desc.imageHeight > 1 then sub64 desc.imageHeight IMAGE_POISON_HEIGHT
      else desc.imageHeight
  | .depth =>
      if desc.imageDepth > 1 then sub64 desc.imageDepth IMAGE_POISON_DEPTH else desc.imageDepth
  | .arraySize =>
      if desc.imageArraySize > 1 then
        if desc.imageHeight > 1 then sub64 desc.imageArraySize IMAGE_POISON_DEPTH
        else sub64 desc.imageArraySize IMAGE_POISON_HEIGHT
      else desc.imageArraySize

/-- An extent without canaries is only taken for itself when there is nothing to take
back. -/
theorem takeBack_eq_iff {desc : ImageDesc} {dim : ImageDim} :
    takeBack desc dim = desc.extent dim ↔ desc.extent dim ≤ 1 := by
  have shrinks : ∀ n, n > 1 → sub64 n 16 ≠ n := by
    intro n _
    unfold sub64 u64
    omega
  have decided : ∀ n, (if n > 1 then sub64 n 16 else n) = n ↔ n ≤ 1 := by
    intro n
    split_ifs with several
    · exact iff_of_false (shrinks n several) (by omega)
    · exact iff_of_true rfl (by omega)
  cases dim with
  | width => exact decided _
  | height => exact decided _
  | depth => exact decided _
  | arraySize =>
      have same : takeBack desc .arraySize =
          if desc.imageArraySize > 1 then sub64 desc.imageArraySize 16
          else desc.imageArraySize := by
        simp only [takeBack, IMAGE_POISON_DEPTH, IMAGE_POISON_HEIGHT, ite_self]
      rw [same]
      exact decided _

/-- Where there are canaries, the stored extents lead back to those that were asked
for. -/
theorem takeBack_stored {m1 : MemObj} {desc : ImageDesc} (stored : StoredImage m1 desc)
    (canary : m1.hasCanary = true) (fits : desc.ExpandsInSizeT) (dim : ImageDim) :
    takeBack m1.imageDesc dim = (standardDesc desc).extent dim := by
  have back : ∀ dim, desc.imageType.Has dim →
      u64 (desc.extent dim + 16) = desc.extent dim + 16 ∧
        sub64 (desc.extent dim + 16) 16 = desc.extent dim := by
    intro dim has
    exact ⟨u64_of_lt (fits dim has), by rw [sub64_of_le (fits dim has) (by omega),
      Nat.add_sub_cancel]⟩
  have width : desc.imageType.Has .width → u64 (desc.imageWidth + 16) = desc.imageWidth + 16 ∧
      sub64 (desc.imageWidth + 16) 16 = desc.imageWidth := back .width
  have height : desc.imageType.Has .height →
      u64 (desc.imageHeight + 16) = desc.imageHeight + 16 ∧
        sub64 (desc.imageHeight + 16) 16 = desc.imageHeight := back .height
  have depth : desc.imageType.Has .depth → u64 (desc.imageDepth + 16) = desc.imageDepth + 16 ∧
      sub64 (desc.imageDepth + 16) 16 = desc.imageDepth := back .depth
  have array : desc.imageType.Has .arraySize →
      u64 (desc.imageArraySize + 16) = desc.imageArraySize + 16 ∧
        sub64 (desc.imageArraySize + 16) 16 = desc.imageArraySize := back .arraySize
  have one : u64 1 = 1 := by decide
  have extents := stored.extents
  simp only [canary, if_true, Prod.mk.injEq] at extents
  obtain ⟨storedWidth, storedHeight, storedDepth, storedArray⟩ := extents
  cases dim <;> simp only [takeBack, storedWidth, storedHeight, storedDepth, storedArray] <;>
    cases type : desc.imageType <;>
    simp only [type, ImageType.Has, true_implies, false_implies] at width height depth array <;>
    simp [expandLastDimForFill, standardDesc, ImageDesc.toSizeT, ImageDesc.extent, type,
      IMAGE_POISON_WIDTH, IMAGE_POISON_HEIGHT, IMAGE_POISON_DEPTH, one, width, height, depth, array]

/-- An image without canaries is stored as it was asked for. -/
theorem extent_stored {m1 : MemObj} {desc : ImageDesc} (stored : StoredImage m1 desc)
    (plain : m1.hasCanary = false) (dim : ImageDim) :
    m1.imageDesc.extent dim = (standardDesc desc).extent dim := by
  have extents := stored.extents
  simp only [plain, Bool.false_eq_true, if_false, Prod.mk.injEq] at extents
  cases dim
  case width => exact extents.1
  case height => exact extents.2.1
  case depth => exact extents.2.2.1
  case arraySize => exact extents.2.2.2

theorem extent_standardDesc {desc : ImageDesc} {dim : ImageDim} (has : desc.imageType.Has dim) :
    (standardDesc desc).extent dim = desc.extent dim := by
  cases dim <;> cases type : desc.imageType <;> rw [type] at has <;>
    first | exact has.elim | simp [standardDesc, ImageDesc.extent, type]

theorem volume_standardDesc (desc : ImageDesc) :
    (standardDesc desc).imageWidth * (standardDesc desc).imageHeight *
      (standardDesc desc).imageDepth * (standardDesc desc).imageArraySize =
        (imageBox desc).volume := by
  cases type : desc.imageType <;> simp [standardDesc, imageBox, Box.volume, type] <;> ring

/-- `clGetImageInfo` takes an extent back where the runtime answers what is stored. -/
theorem clGetImageInfo_stored {w : Wrapper} {image : Handle} {m1 : MemObj} (dim : ImageDim)
    (tracked : w.table.find image = some m1) (isImage : m1.isImage = true) :
    clGetImageInfo w image (.dim dim) (some (m1.imageDesc.extent dim)) =
      some (some (takeBack m1.imageDesc dim)) := by
  unfold clGetImageInfo
  dsimp only
  rw [Option.map_some, Option.some.injEq, Option.some.injEq]
  by_cases zero : m1.imageDesc.extent dim = 0
  · rw [if_neg (by simp [zero]), eq_comm, takeBack_eq_iff, zero]
    exact Nat.zero_le 1
  · rw [if_pos zero, tracked]
    dsimp only
    rw [if_pos isImage]
    cases dim <;> rfl

/-! ## What the application sees -/

/-- There is room for the canaries in the extents that were asked for. -/
def Request.Fits (m1 : MemObj) : Request → Prop
  | .buffer _ => True
  | .image _ desc => m1.hasCanary = true → desc.ExpandsInSizeT

/-- The queries take back as much as was added.  They write to `param_value` and need one;
and an image has canaries, and the bytes of its pixels as `getImageDataSize` counts them are
those that were asked for, or there is nothing to take back. -/
def TakesBackAdded (pixels : PixelSizes) (m1 : MemObj) (request : Request) (given : Bool) : Prop :=
  match request with
  | .buffer _ => m1.hasCanary = true → given = true
  | .image format desc =>
      given = true ∧
        if m1.hasCanary then
          u64 ((imageBox desc).volume * getImageDataSize format) =
            (imageBox desc).volume * pixels.size format
        else ∀ dim, desc.imageType.Has dim → desc.extent dim ≤ 1

/-- As long as they are a `size_t`, the bytes are right for the formats that
`getImageDataSize` knows, and for images without pixels. -/
theorem countsBytes_iff {pixels : PixelSizes} {volume : Nat} {format : ImageFormat}
    (countable : SizeT (volume * getImageDataSize format)) :
    u64 (volume * getImageDataSize format) = volume * pixels.size format ↔
      volume = 0 ∨ getImageDataSize format = pixels.size format := by
  rw [u64_of_lt countable, mul_eq_mul_left_iff, or_comm]

section

variable {env : Env} {before w : Wrapper} {handle : Handle} {m1 : MemObj} {pixels : PixelSizes}
  {given : Bool}

/-- The entry and the object of an image stay as they were entered. -/
theorem ImageEntered.of_kept {m : MemObj} {format : ImageFormat} {desc : ImageDesc} {plain : Bool}
    (entered : ImageEntered before handle m format desc plain)
    (same : m1 = { m with refCount := m1.refCount })
    (object : ∃ object object', before.rt.objects.find handle = some object ∧
      w.rt.objects.find handle = some object' ∧ object'.kind = object.kind) :
    ImageEntered w handle m1 format desc plain := by
  obtain ⟨stored, imageFormat, canary, object₀, store, passed, d, ptr, found₀, kind₀, type,
    extents⟩ := entered
  obtain ⟨object, object', found, found', kind⟩ := object
  obtain rfl : object₀ = object := Option.some.inj (found₀.symm.trans found)
  rw [same]
  exact ⟨stored.of_keeps ⟨rfl, rfl, rfl, rfl⟩, imageFormat, canary, object', store, passed, d, ptr,
    found', kind.trans kind₀, type, extents⟩

/-- The runtime answers with what the table stores. -/
theorem ImageEntered.imageInfo {format : ImageFormat} {desc : ImageDesc} {plain : Bool}
    (entered : ImageEntered w handle m1 format desc plain) {dim : ImageDim}
    (has : desc.imageType.Has dim) :
    w.rt.imageInfo handle dim = some (m1.imageDesc.extent dim) := by
  obtain ⟨object, store, passed, _, _, found, kind, type, extents⟩ := entered.object
  simp only [Runtime.imageInfo, found, kind, Option.bind_some, type, has, if_true, extents]

/-- Without a `param_value` the code reads `NULL` when it is asked for the width. -/
theorem given_of_seesRequest {format : ImageFormat} {desc : ImageDesc} {plain : Bool}
    (entered : ImageEntered w handle m1 format desc plain)
    (sees : SeesRequest pixels w handle m1 (.image format desc) given) : given = true := by
  cases given with
  | true => rfl
  | false =>
      have has : desc.imageType.Has .width := by
        cases desc.imageType <;> trivial
      have shown := sees.extents .width (desc.extent .width) _ (if_pos has) (entered.imageInfo has)
      exact absurd shown (by simp [placed, clGetImageInfo])

/-- With canaries the application sees what it asked for, as long as the bytes of the
image are counted. -/
theorem seesRequest_canaried {format : ImageFormat} {desc : ImageDesc} {plain : Bool}
    (entered : ImageEntered w handle m1 format desc plain)
    (tracked : w.table.find handle = some m1) (canary : m1.hasCanary = true)
    (fits : desc.ExpandsInSizeT) :
    SeesRequest pixels w handle m1 (.image format desc) true ↔
      u64 ((imageBox desc).volume * getImageDataSize format) =
        (imageBox desc).volume * pixels.size format := by
  have back := takeBack_stored entered.stored canary fits
  have size : ∀ value, clGetMemObjectInfo w handle .size (some value) =
      some (some (u64 ((imageBox desc).volume * getImageDataSize format))) := by
    intro value
    have product : clGetMemObjectInfo w handle .size (some value) =
        some (some (u64 (takeBack m1.imageDesc .width * takeBack m1.imageDesc .height *
          takeBack m1.imageDesc .depth * takeBack m1.imageDesc .arraySize *
            getImageDataSize m1.imageFormat))) := by
      simp only [clGetMemObjectInfo, if_true, tracked, canary, entered.stored.isImage,
        Option.map_some]
      rfl
    rw [product, back, back, back, back, entered.imageFormat, ← volume_standardDesc desc]
    rfl
  constructor
  · intro sees
    have shown := sees.memSize canary 0
    rw [placed, if_pos rfl, size] at shown
    exact Option.some.inj (Option.some.inj shown)
  · intro counted
    constructor
    case memSize =>
      intro _ value
      rw [placed, if_pos rfl, size, counted]
      rfl
    case extents =>
      intro dim asked value wanted answered
      simp only [Request.extent] at wanted
      split_ifs at wanted with has
      rw [entered.imageInfo has, Option.some.injEq] at answered
      rw [placed, if_pos rfl, ← answered, clGetImageInfo_stored dim tracked entered.stored.isImage,
        back, extent_standardDesc has, Option.some.inj wanted]
      rfl

/-- Without canaries it does where no extent exceeds one. -/
theorem seesRequest_plain {format : ImageFormat} {desc : ImageDesc} {plain : Bool}
    (entered : ImageEntered w handle m1 format desc plain)
    (tracked : w.table.find handle = some m1) (noCanary : m1.hasCanary = false) :
    SeesRequest pixels w handle m1 (.image format desc) true ↔
      ∀ dim, desc.imageType.Has dim → desc.extent dim ≤ 1 := by
  have same : ∀ dim, desc.imageType.Has dim → m1.imageDesc.extent dim = desc.extent dim :=
    fun dim has => (extent_stored entered.stored noCanary dim).trans (extent_standardDesc has)
  constructor
  · intro sees dim has
    have shown := sees.extents dim (desc.extent dim) _ (if_pos has) (entered.imageInfo has)
    rw [placed, if_pos rfl, clGetImageInfo_stored dim tracked entered.stored.isImage,
      ← same dim has] at shown
    rw [← same dim has, ← takeBack_eq_iff]
    exact Option.some.inj (Option.some.inj shown)
  · intro single
    constructor
    case memSize =>
      intro canary
      rw [noCanary] at canary
      contradiction
    case extents =>
      intro dim asked value wanted answered
      simp only [Request.extent] at wanted
      split_ifs at wanted with has
      rw [entered.imageInfo has, Option.some.injEq] at answered
      rw [placed, if_pos rfl, ← answered, clGetImageInfo_stored dim tracked entered.stored.isImage,
        takeBack_eq_iff.mpr ((same dim has).le.trans (single dim has)), same dim has,
        Option.some.inj wanted]
      rfl

/-- A buffer shows its size, and needs a place for it when it has canaries. -/
theorem seesRequest_buffer {size : Nat} (entered : BufferEntered m1 size)
    (tracked : w.table.find handle = some m1) :
    SeesRequest pixels w handle m1 (.buffer size) given ↔ (m1.hasCanary = true → given = true) := by
  have shows : m1.hasCanary = true → ∀ paramValue,
      clGetMemObjectInfo w handle .size paramValue = paramValue.map fun _ => some size := by
    intro canary paramValue
    simp only [clGetMemObjectInfo, if_true, tracked, canary, entered.notImage, Bool.false_eq_true,
      if_false, entered.size canary]
  constructor
  · intro sees canary
    have shown := sees.memSize canary 0
    rw [shows canary] at shown
    cases given with
    | true => rfl
    | false => exact absurd shown (by simp [placed])
  · intro needs
    constructor
    case memSize =>
      intro canary value
      rw [shows canary, needs canary]
      rfl
    case extents => rintro dim asked value ⟨⟩

/-- The application sees what it asked for exactly where the queries take back as
much as the creation added. -/
theorem seesRequest_iff {request : Request} {created : Wrapper} (live : before.KeysLive)
    (made : CreatedBy env before request handle created) (handed : handle ≠ NULL)
    (fits : request.Fits m1) (kept : Kept created w handle m1) :
    SeesRequest pixels w handle m1 request given ↔ TakesBackAdded pixels m1 request given := by
  obtain ⟨tracked, ⟨m, entry, same⟩, object⟩ := kept
  have buffer : ∀ {size : Nat}, BufferEntered m size → BufferEntered m1 size := by
    intro size entered
    rw [same]
    exact ⟨entered.notImage, entered.size⟩
  cases made with
  | buffer made =>
      exact seesRequest_buffer (buffer (bufferEntered live made handed entry)) tracked
  | subBuffer made =>
      exact seesRequest_buffer (buffer (subBufferEntered live made handed entry)) tracked
  | image made =>
      have canary : m1.hasCanary = m.hasCanary := by rw [same]
      have expands := fun isCanaried => fits (canary.trans isCanaried)
      have entered := (imageEntered live expands made handed entry).of_kept same object
      rw [TakesBackAdded]
      constructor
      · intro sees
        obtain rfl := given_of_seesRequest entered sees
        refine ⟨rfl, ?_⟩
        split_ifs with canary
        · exact (seesRequest_canaried entered tracked canary (fits canary)).mp sees
        · exact (seesRequest_plain entered tracked (by simpa using canary)).mp sees
      · rintro ⟨rfl, counted⟩
        split_ifs at counted with canary
        · exact (seesRequest_canaried entered tracked canary (fits canary)).mpr counted
        · exact (seesRequest_plain entered tracked (by simpa using canary)).mpr counted

end

theorem Kept.refl {w : Wrapper} {handle : Handle} {m1 : MemObj} {object : RtObject}
    (entry : w.table.find handle = some m1) (live : w.rt.objects.find handle = some object) :
    Kept w w handle m1 :=
  ⟨entry, ⟨m1, entry, rfl⟩, ⟨object, object, live, live, rfl⟩⟩

/-- An image of three pixels in a row. -/
theorem seesRequest_iff_line :
    ∃ w' m1, (ImageCall.image ⟨.image1D, 3, 0, 0, 0, 0, 0, 0, 0, NULL⟩).run grantAll
        (Wrapper.initial (fun _ => 5) false) 7 {} ⟨.rgba, .unsignedInt8⟩ NULL = some (1, none, w') ∧
      w'.table.find 1 = some m1 ∧
      (SeesRequest countedSizes w' 1 m1
          (.image ⟨.rgba, .unsignedInt8⟩ ⟨.image1D, 3, 0, 0, 0, 0, 0, 0, 0, NULL⟩) true ↔
        TakesBackAdded countedSizes m1
          (.image ⟨.rgba, .unsignedInt8⟩ ⟨.image1D, 3, 0, 0, 0, 0, 0, 0, 0, NULL⟩) true) := by
  refine ⟨_, _, rfl, rfl, ?_⟩
  have made := @CreatedBy.image grantAll (Wrapper.initial (fun _ => 5) false) 7 {}
    ⟨.rgba, .unsignedInt8⟩ NULL (.image ⟨.image1D, 3, 0, 0, 0, 0, 0, 0, 0, NULL⟩) 1 none _ rfl
  refine seesRequest_iff (keysLive_initial (fun _ => 5) false) made (by decide) ?_
    (Kept.refl rfl rfl)
  intro _ dim has
  cases dim with
  | width => exact (by decide : 3 + 16 < 18446744073709551616)
  | height => exact has.elim
  | depth => exact has.elim
  | arraySize => exact has.elim

/-- An image of twenty pixels made from a buffer, with contents to copy, says that it
is four pixels wide, and one of a format that `getImageDataSize` does not know says that it
has no bytes. -/
theorem not_seesRequest_buffer :
    (∃ w' m1, (ImageCall.image ⟨.image1DBuffer, 20, 0, 0, 0, 0, 0, 0, 0, 9⟩).run grantAll
        (Wrapper.initial (fun _ => 5) false) 7 { copyHostPtr := true } ⟨.rgba, .unsignedInt8⟩ 100 =
          some (1, none, w') ∧
      w'.table.find 1 = some m1 ∧ w'.rt.imageInfo 1 .width = some 20 ∧
      clGetImageInfo w' 1 (.dim .width) (some 20) = some (some 4) ∧
      ¬ SeesRequest countedSizes w' 1 m1
        (.image ⟨.rgba, .unsignedInt8⟩ ⟨.image1DBuffer, 20, 0, 0, 0, 0, 0, 0, 0, 9⟩) true) ∧
    ∃ w' m1, (ImageCall.image ⟨.image1D, 3, 0, 0, 0, 0, 0, 0, 0, NULL⟩).run grantAll
        (Wrapper.initial (fun _ => 5) false) 7 {} ⟨.rgb, .other⟩ NULL = some (1, none, w') ∧
      w'.table.find 1 = some m1 ∧
      clGetMemObjectInfo w' 1 .size (some 0) = some (some 0) ∧
      ¬ SeesRequest countedSizes w' 1 m1
        (.image ⟨.rgb, .other⟩ ⟨.image1D, 3, 0, 0, 0, 0, 0, 0, 0, NULL⟩) true := by
  constructor
  · refine ⟨_, _, rfl, rfl, rfl, rfl, fun sees => ?_⟩
    have shown := sees.extents .width 20 20 rfl rfl
    exact absurd shown (by decide)
  · refine ⟨_, _, rfl, rfl, rfl, fun sees => ?_⟩
    have shown := sees.memSize rfl 0
    exact absurd shown (by decide)

end Clarmor
