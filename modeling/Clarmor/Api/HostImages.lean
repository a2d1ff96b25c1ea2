import Clarmor.Wrapper.ImageCalls
import Clarmor.Image.FlatCopy
import Clarmor.Wrapper.Placement

/-!
# Images in the application's memory

An image with `CL_MEM_USE_HOST_PTR` gets no canaries: its pixels are those behind
the host pointer, in the rows and slices that the pitches give.  `clCreateImage`
passes the pitches on; the calls with separate dimensions pass zeros.
-/

namespace Clarmor

/-- The first byte of a pixel in the application's memory; a pitch of zero stands
for tight packing. -/
def hostAddress (desc : ImageDesc) (d hostPtr : Nat) (p : Point) : Nat :=
  hostPtr + p.z * slicePitch desc d + p.y * rowPitch desc d + p.x * d

/-- The arguments of the real call that made an image. -/
structure CalledWith (env : Env) (w w' : Wrapper) (context : Handle) (flags : MemFlags)
    (format : ImageFormat) (ret : Handle) (desc : ImageDesc) (hostPtr : Nat) : Prop where
  made : w.rt.createImage env context flags format desc (hostArea w.host hostPtr) =
    (ret, none, w'.rt)

/-- The image denotes the pixels that the application's arguments describe, where `d` is
the size of a pixel. -/
def DenotesHostPixels (env : Env) (w w' : Wrapper) (context : Handle) (flags : MemFlags)
    (format : ImageFormat) (d : Nat) (ret : Handle) (desc : ImageDesc) (hostPtr : Nat) : Prop :=
  ∃ passed passedPtr, CalledWith env w w' context flags format ret passed passedPtr ∧
    ∀ p, (imageBox desc).Mem p → hostAddress passed d passedPtr p = hostAddress desc d hostPtr p

/-- The rows and slices of an image are packed as a pitch of zero says, as far as
there are several. -/
def TightlyPacked (desc : ImageDesc) (d : Nat) : Prop :=
  (imageBox desc).volume = 0 ∨
    ((imageBox desc).ry ≤ 1 ∨ rowPitch desc d = desc.imageWidth * d) ∧
      ((imageBox desc).rz ≤ 1 ∨
        slicePitch desc d = desc.imageWidth * d * (imageBox desc).ry)

/-- The pitches survive the call. -/
def PitchesSurvive (call : ImageCall) (d : Nat) : Prop :=
  match call with
  | .image _ => True
  | .image2D .. | .image3D .. => TightlyPacked call.desc d

section

variable {env : Env} {w w' : Wrapper} {context ret : Handle} {flags : MemFlags}
  {format : ImageFormat} {hostPtr : Nat} {status : ClStatus} {call : ImageCall}

theorem rowPitch_standardDesc (desc : ImageDesc) (d : Nat) :
    rowPitch (standardDesc desc) d = rowPitch desc d := by
  cases type : desc.imageType <;> simp [rowPitch, standardDesc, type]

theorem slicePitch_standardDesc (desc : ImageDesc) (d : Nat) :
    slicePitch (standardDesc desc) d = slicePitch desc d := by
  rw [slicePitch, slicePitch, rowPitch_standardDesc, imageBox_standardDesc]
  cases type : desc.imageType <;> simp [standardDesc, type]

/-- The runtime accepts host data exactly with the flags that use it. -/
theorem createImage_accepted {rt rt' : Runtime} {desc : ImageDesc} {data : Option HostArea}
    (created : rt.createImage env context flags format desc data = (ret, status, rt'))
    (handed : ret ≠ NULL) : Runtime.hostPtrError flags (data.map HostArea.bytes) = false := by
  unfold Runtime.createImage at created
  split_ifs at created with refused
  · exact absurd (congrArg Prod.fst created).symm handed
  · simpa using refused

/-- The object that a call over the application's memory leaves. -/
theorem CalledWith.find {desc : ImageDesc} (own : flags.useHostPtr = true)
    (called : CalledWith env w w' context flags format ret desc hostPtr) (handed : ret ≠ NULL) :
    w'.rt.objects.find ret = some
      ⟨.image w.rt.creations format desc (env.pixels.size format) (some hostPtr), context, 1⟩ := by
  have accepted := createImage_accepted called.made handed
  have given : hostPtr ≠ NULL := by
    rintro rfl
    simp [Runtime.hostPtrError, hostArea, hostData, own] at accepted
  rcases Runtime.createImage_cases called.made with ⟨null, -⟩ | ⟨-, created⟩
  · exact absurd null handed
  rw [created.objects, Table.find_insert_fresh created.fresh, Runtime.newImage, if_pos own,
    hostArea, hostData, if_neg given]
  rfl

/-- The arguments of two calls that made the same image are the same. -/
theorem CalledWith.inj {desc desc' : ImageDesc} {hostPtr' : Nat} (own : flags.useHostPtr = true)
    (called : CalledWith env w w' context flags format ret desc hostPtr)
    (called' : CalledWith env w w' context flags format ret desc' hostPtr')
    (handed : ret ≠ NULL) : desc = desc' ∧ hostPtr = hostPtr' := by
  have found := (called.find own handed).symm.trans (called'.find own handed)
  rw [Option.some.injEq, RtObject.mk.injEq, RtKind.image.injEq, Option.some.injEq] at found
  exact ⟨found.1.2.2.1, found.1.2.2.2.2⟩

/-- A host-backed image is made with the descriptor that the call passes. -/
theorem calledWith_passed (own : flags.useHostPtr = true)
    (made : call.run env w context flags format hostPtr = some (ret, status, w'))
    (handed : ret ≠ NULL) :
    CalledWith env w w' context flags format ret
      (call.passed (imageTemp context flags format call.desc)) hostPtr := by
  have plain : call.plain flags = true := by
    cases call <;> simp [ImageCall.plain, own]
  obtain ⟨c, object, rfl, rfl, rt, -⟩ := ImageCall.run_plain plain made
  rcases createImageObject_handed object handed with
    ⟨-, created, -, -⟩ | ⟨copies, between, data, created, -⟩
  · exact ⟨by rw [rt]; exact created⟩
  · have accepted := createImage_accepted created handed
    simp [Runtime.hostPtrError, imageTemp, own] at accepted

theorem imageBox_origin (desc : ImageDesc) :
    (imageBox desc).ox = 0 ∧ (imageBox desc).oy = 0 ∧ (imageBox desc).oz = 0 := by
  cases type : desc.imageType <;> simp [imageBox, type]

/-- Two pairs of strides reach the same places in a box exactly where they agree as
far as there are several rows or slices. -/
theorem strides_agree_iff {b : Box} (origin : b.ox = 0 ∧ b.oy = 0 ∧ b.oz = 0)
    {row row' slice slice' : Nat} :
    (∀ p, b.Mem p → p.z * slice' + p.y * row' = p.z * slice + p.y * row) ↔
      b.volume = 0 ∨ (b.ry ≤ 1 ∨ row = row') ∧ (b.rz ≤ 1 ∨ slice = slice') := by
  obtain ⟨ox, oy, oz⟩ := origin
  constructor
  · intro same
    by_cases empty : b.volume = 0
    · exact Or.inl empty
    · right
      rw [Box.volume, Nat.mul_eq_zero, Nat.mul_eq_zero, not_or, not_or] at empty
      obtain ⟨⟨deep, high⟩, wide⟩ := empty
      constructor
      · by_contra differ
        have second := same ⟨0, 1, 0⟩ (by simp only [Box.Mem]; omega)
        simp only [Nat.zero_mul, Nat.one_mul, Nat.zero_add] at second
        omega
      · by_contra differ
        have second := same ⟨0, 0, 1⟩ (by simp only [Box.Mem]; omega)
        simp only [Nat.zero_mul, Nat.one_mul, Nat.add_zero] at second
        omega
  · rintro (empty | ⟨rows, slices⟩) p member
    · have below := Box.index_lt member
      omega
    · obtain ⟨-, ⟨-, yLt⟩, -, zLt⟩ := member
      have sameSlice : p.z * slice' = p.z * slice := by
        rcases slices with single | same
        · rw [show p.z = 0 by omega, Nat.zero_mul, Nat.zero_mul]
        · rw [same]
      have sameRow : p.y * row' = p.y * row := by
        rcases rows with single | same
        · rw [show p.y = 0 by omega, Nat.zero_mul, Nat.zero_mul]
        · rw [same]
      rw [sameSlice, sameRow]

/-- Without pitches the rows and slices are packed tightly. -/
theorem hostAddress_tight_iff {desc passed : ImageDesc} {d : Nat}
    (row : rowPitch passed d = desc.imageWidth * d)
    (slice : slicePitch passed d = desc.imageWidth * d * (imageBox desc).ry) :
    (∀ p, (imageBox desc).Mem p →
        hostAddress passed d hostPtr p = hostAddress desc d hostPtr p) ↔ TightlyPacked desc d := by
  rw [TightlyPacked, ← strides_agree_iff (imageBox_origin desc)]
  refine forall₂_congr fun p _ => ?_
  rw [hostAddress, hostAddress, row, slice]
  omega

/-- The addresses under the descriptor that is passed on are those of the
application exactly where the pitches survive. -/
theorem hostAddress_passed_iff (d : Nat) :
    (∀ p, (imageBox call.desc).Mem p →
        hostAddress (call.passed (imageTemp context flags format call.desc)) d hostPtr p =
          hostAddress call.desc d hostPtr p) ↔ PitchesSurvive call d := by
  cases call with
  | image desc =>
      refine iff_of_true (fun p _ => ?_) trivial
      exact congrArg₂ (fun slice row => hostPtr + p.z * slice + p.y * row + p.x * d)
        (slicePitch_standardDesc desc d) (rowPitch_standardDesc desc d)
  | image2D => exact hostAddress_tight_iff rfl rfl
  | image3D => exact hostAddress_tight_iff rfl rfl

/-- A host-backed image denotes the application's pixels exactly where its pitches
survive the call. -/
theorem denotesHostPixels_iff (d : Nat) (own : flags.useHostPtr = true)
    (made : call.run env w context flags format hostPtr = some (ret, status, w'))
    (handed : ret ≠ NULL) :
    DenotesHostPixels env w w' context flags format d ret call.desc hostPtr ↔
      PitchesSurvive call d := by
  have called := calledWith_passed own made handed
  rw [← @hostAddress_passed_iff context flags format hostPtr]
  constructor
  · rintro ⟨passed, passedPtr, called', same⟩
    obtain ⟨rfl, rfl⟩ := called'.inj own called handed
    exact same
  · intro same
    exact ⟨_, hostPtr, called, same⟩

end

/-- Two rows of two pixels of four bytes, packed tightly. -/
theorem denotesHostPixels_iff_tight :
    ∃ w', (ImageCall.image2D 2 2 8).run grantAll (Wrapper.initial (fun _ => 5) false) 7
        { useHostPtr := true } ⟨.rgba, .unsignedInt8⟩ 100 = some (1, none, w') ∧
      (DenotesHostPixels grantAll (Wrapper.initial (fun _ => 5) false) w' 7 { useHostPtr := true }
          ⟨.rgba, .unsignedInt8⟩ 4 1 (ImageCall.image2D 2 2 8).desc 100 ↔
        PitchesSurvive (.image2D 2 2 8) 4) := by
  refine ⟨_, rfl, ?_⟩
  exact @denotesHostPixels_iff grantAll (Wrapper.initial (fun _ => 5) false) _ 7 1
    { useHostPtr := true } ⟨.rgba, .unsignedInt8⟩ 100 none (.image2D 2 2 8) 4 rfl rfl (by decide)

/-- With sixteen bytes from row to row, the second row starts at byte 116, but the
runtime takes it from byte 108. -/
theorem not_denotesHostPixels_padded :
    ∃ w', (ImageCall.image2D 2 2 16).run grantAll (Wrapper.initial (fun _ => 5) false) 7
        { useHostPtr := true } ⟨.rgba, .unsignedInt8⟩ 100 = some (1, none, w') ∧
      ¬ DenotesHostPixels grantAll (Wrapper.initial (fun _ => 5) false) w' 7
        { useHostPtr := true } ⟨.rgba, .unsignedInt8⟩ 4 1 (ImageCall.image2D 2 2 16).desc 100 := by
  refine ⟨_, rfl, ?_⟩
  rintro ⟨passed, passedPtr, called, same⟩
  obtain ⟨rfl, rfl⟩ := @CalledWith.inj grantAll (Wrapper.initial (fun _ => 5) false) _ 7 1
    { useHostPtr := true } ⟨.rgba, .unsignedInt8⟩ passedPtr passed
    ⟨.image2D, 2, 2, 1, 1, 0, 0, 0, 0, NULL⟩ 100 rfl called ⟨rfl⟩ (by decide)
  exact absurd (same ⟨0, 1, 0⟩ (by decide)) (by decide)

end Clarmor
