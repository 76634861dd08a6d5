import MethodAtlas.Heap.Basic
import MethodAtlas.Proofs.Bytes.Operations

/-!
# Lookups undo the layout of heaps

A heap that is laid out from blobs or from strings is accepted, and each of them is found at its
place: a blob at its length (`BlobHeap.get_encode`), a string at each of its characters, from where
on its rest is found (`StringHeap.get_encode`). In any heap a lookup that succeeds reads a stretch
of the heap and nothing else: `BlobHeap.exists_stop_of_get`, `StringHeap.spelt_of_get`.
-/
namespace MethodAtlas

namespace Text

/-- The bytes of a character are not zero, unless the character is. -/
theorem zero_notMem_utf8EncodeChar {c : Char} (h : c ≠ '\x00') :
    (0 : UInt8) ∉ String.utf8EncodeChar c := by
  have hne : ∀ n, 0 < n → n < 0x100 → (0 : UInt8) ≠ UInt8.ofNat n := by
    intro n hpos hlt heq
    have hnat := congrArg UInt8.toNat heq
    simp only [UInt8.toNat_ofNat', UInt8.toNat_zero] at hnat
    omega
  have hcode : 0 < c.val.toNat := by
    refine Nat.pos_of_ne_zero fun hzero => h (Char.ext (UInt32.toNat_inj.mp ?_))
    simpa using hzero
  rw [String.utf8EncodeChar.eq_def]
  dsimp only
  split
  · simp only [List.mem_singleton]
    exact hne _ hcode (by omega)
  split
  · simp only [List.mem_cons, List.not_mem_nil, or_false, not_or]
    exact ⟨hne _ (by omega) (by omega), hne _ (by omega) (by omega)⟩
  split
  · simp only [List.mem_cons, List.not_mem_nil, or_false, not_or]
    exact ⟨hne _ (by omega) (by omega), hne _ (by omega) (by omega), hne _ (by omega) (by omega)⟩
  · simp only [List.mem_cons, List.not_mem_nil, or_false, not_or]
    exact ⟨hne _ (by omega) (by omega), hne _ (by omega) (by omega), hne _ (by omega) (by omega),
      hne _ (by omega) (by omega)⟩

/-- A string without the zero character has no zero byte. -/
theorem zero_notMem_toByteArray {s : String} (h : '\x00' ∉ s.toList) :
    (0 : UInt8) ∉ s.toByteArray.data.toList := by
  rw [← String.utf8Encode_toList, List.utf8Encode, List.toList_data_toByteArray, List.mem_flatMap]
  rintro ⟨c, hc, hzero⟩
  exact zero_notMem_utf8EncodeChar (fun heq => h (heq ▸ hc)) hzero

end Text

namespace BlobHeap
variable {heap : BlobHeap} {index : Nat}

/-- A heap that is laid out from blobs is accepted. -/
theorem exists_ofBytes_encode (blobs : List (List UInt8)) :
    ∃ heap, ofBytes ⟨(encode blobs).toArray⟩ = .ok heap ∧
      heap.bytes = ⟨(encode blobs).toArray⟩ := by
  have hfirst : Bytes.byte? ⟨(encode blobs).toArray⟩ 0 = some 0 :=
    (Cursor.Ahead.start (encode blobs)).byte?_eq
  exact ⟨⟨_, hfirst⟩, dif_pos hfirst, rfl⟩

theorem encode_append (front behind : List (List UInt8)) :
    encode (front ++ behind) = encode front ++ behind.flatMap encodeBlob := by
  simp [encode]

theorem reads_blob {b : List UInt8} (h : b.length < 0x20000000) :
    Decoder.Reads blob (encodeBlob b) ⟨b.toArray⟩ :=
  (Decoder.Reads.compressed h).bind (Decoder.Reads.take b)

theorem readsOwn_blob : blob.ReadsOwn :=
  Decoder.ReadsOwn.compressed.bind fun length => .take length

/-- A blob is found where its length stands, right behind the blobs in front of it. -/
theorem get_encode {front behind : List (List UInt8)} {b : List UInt8}
    (hheap : heap.bytes = ⟨(encode (front ++ b :: behind)).toArray⟩)
    (hlength : b.length < 0x20000000) : heap.get (encode front).length = .ok ⟨b.toArray⟩ := by
  have hahead : (Cursor.ofPosition (encode front).length).Ahead heap.bytes
      (encodeBlob b ++ behind.flatMap encodeBlob) := by
    refine ⟨encode front, ?_, rfl⟩
    rw [hheap, encode_append, List.flatMap_cons]
  rw [get, Decoder.decodeAt, reads_blob hlength trivial hahead]

/-- A blob that is found ends a stretch of the heap that its length opens, and is found wherever
there are the bytes of this stretch. -/
theorem exists_stop_of_get {b : ByteArray} (h : heap.get index = .ok b) :
    ∃ stop ≤ heap.bytes.size, index + b.size < stop ∧
      b = heap.bytes.extract (stop - b.size) stop ∧
      ∀ other : BlobHeap, stop ≤ other.bytes.size →
        other.bytes.extract index stop = heap.bytes.extract index stop →
        other.get index = .ok b := by
  have hrun : blob.run heap.bytes (.ofPosition index) =
      (.ok b, (blob.run heap.bytes (.ofPosition index)).2) := Prod.ext h rfl
  obtain ⟨length, mid, hlength, htake⟩ := Decoder.run_bind_eq_ok hrun
  obtain ⟨-, size, hsize, rfl⟩ := Decoder.lt_of_run_compressed hlength
  rw [Decoder.run_take] at htake
  split at htake
  · next hfit =>
    obtain ⟨hb, hstop⟩ := Prod.mk.inj htake
    replace hb : heap.bytes.extract (index + size) (index + size + length) = b :=
      Except.ok.inj hb
    replace hfit : index + size + length ≤ heap.bytes.size := hfit
    have hsizeb : b.size = length := by
      rw [← hb, ByteArray.size_extract]
      omega
    have hpositive : 0 < size := (by decide : ∀ k ∈ [1, 2, 4], 0 < k) size hsize
    have hwithin : index ≤ heap.bytes.size := by omega
    obtain ⟨text, hahead⟩ := Cursor.Ahead.exists_of_le (c := .ofPosition index) hwithin
    obtain ⟨form, after, rfl, hform, hreads⟩ := readsOwn_blob hahead hrun
    have hlast : index + form.length = index + size + length :=
      congrArg Cursor.position (hform.symm.trans hstop.symm)
    refine ⟨index + size + length, hfit, by omega, ?_, fun other hother hsame => ?_⟩
    · rw [hsizeb, Nat.add_sub_cancel, hb]
    · rw [← hlast] at hother hsame
      obtain ⟨after', hahead'⟩ := Cursor.Ahead.exists_of_extract (c := .ofPosition index) hother
        (hsame.trans hahead.extract_eq)
      rw [get, Decoder.decodeAt, hreads trivial hahead']
  · cases htake

end BlobHeap

namespace StringHeap
variable {heap : StringHeap} {index : Nat} {s : String}

/-- A heap that is laid out from strings is accepted. -/
theorem exists_ofBytes_encode (strings : List String) :
    ∃ heap, ofBytes ⟨(encode strings).toArray⟩ = .ok heap ∧
      heap.bytes = ⟨(encode strings).toArray⟩ := by
  have hfirst : Bytes.byte? ⟨(encode strings).toArray⟩ 0 = some 0 :=
    (Cursor.Ahead.start (encode strings)).byte?_eq
  exact ⟨⟨_, hfirst⟩, dif_pos hfirst, rfl⟩

/-- The zero byte that is found in the rest of some bytes is the first one there. -/
theorem findZero_eq_some_iff {bytes : ByteArray} {c : Cursor} {text : List UInt8} {stop : Nat}
    (h : c.Ahead bytes text) : Bytes.findZero bytes c.position text.length = some stop ↔
      ∃ form after, text = form ++ 0 :: after ∧ 0 ∉ form ∧ stop = c.position + form.length := by
  induction text generalizing c with
  | nil => simp [Bytes.findZero]
  | cons b text ih =>
    have hfirst : c.Ahead bytes ([b] ++ text) := h
    have hnext : (c.advance 1).Ahead bytes text := hfirst.advance
    have hrest := ih hnext
    rw [List.length_cons, Bytes.findZero, h.byte?_eq, List.head?_cons]
    by_cases hb : b = 0
    · rw [if_pos (congrArg some hb)]
      constructor
      · rintro ⟨⟩
        exact ⟨[], text, congrArg (· :: text) hb, List.not_mem_nil, rfl⟩
      · rintro ⟨form, after, htext, hzero, rfl⟩
        obtain ⟨rfl, -⟩ | ⟨rest, rfl, -⟩ := List.cons_eq_append_iff.mp htext
        · rfl
        · exact absurd (hb ▸ List.mem_cons_self) hzero
    · rw [if_neg (by simpa using hb)]
      refine hrest.trans ⟨?_, ?_⟩
      · rintro ⟨form, after, rfl, hzero, rfl⟩
        refine ⟨b :: form, after, rfl, ?_, ?_⟩
        · exact List.not_mem_cons_of_ne_of_not_mem (Ne.symm hb) hzero
        · simp [Nat.add_assoc, Nat.add_comm 1]
      · rintro ⟨form, after, htext, hzero, rfl⟩
        obtain ⟨-, hhead⟩ | ⟨rest, rfl, rfl⟩ := List.cons_eq_append_iff.mp htext
        · exact absurd (List.cons.inj hhead).1.symm hb
        · refine ⟨rest, after, rfl, fun h => hzero (List.mem_cons_of_mem _ h), ?_⟩
          simp [Nat.add_assoc, Nat.add_comm 1]

/-- A string is found where it stands with a zero byte behind it. -/
theorem get_of_ahead {after : List UInt8} (hzero : 0 ∉ s.toByteArray.data.toList)
    (h : (Cursor.ofPosition index).Ahead heap.bytes (s.toByteArray.data.toList ++ 0 :: after)) :
    heap.get index = .ok s := by
  have hsize := h.size_eq
  have hinside : ¬ heap.bytes.size ≤ index := by
    rw [hsize, List.length_append, List.length_cons]
    exact Nat.not_le.mpr (Nat.lt_add_of_pos_right (by omega))
  have hleft : heap.bytes.size - index = (s.toByteArray.data.toList ++ 0 :: after).length := by
    rw [hsize]
    exact Nat.add_sub_cancel_left ..
  have hstop := (findZero_eq_some_iff h).mpr ⟨_, after, rfl, hzero, rfl⟩
  have htext : Text.decode (heap.bytes.extract index
      (index + s.toByteArray.data.toList.length)) = .ok s :=
    (congrArg Text.decode h.extract_eq).trans (Text.decode_toByteArray s)
  rw [get, if_neg hinside, hleft]
  simp only [Cursor.ofPosition] at hstop
  simp only [hstop, htext]

/-- A string that is found stands there with a zero byte behind it, which is the first one. -/
theorem exists_ahead_of_get (h : heap.get index = .ok s) :
    0 ∉ s.toByteArray.data.toList ∧ ∃ after,
      (Cursor.ofPosition index).Ahead heap.bytes (s.toByteArray.data.toList ++ 0 :: after) := by
  rw [get] at h
  split at h
  · cases h
  · next hinside =>
    have hwithin : (Cursor.ofPosition index).position ≤ heap.bytes.size :=
      Nat.le_of_lt (Nat.lt_of_not_le hinside)
    obtain ⟨text, hahead⟩ := Cursor.Ahead.exists_of_le hwithin
    have hleft : heap.bytes.size - index = text.length := by
      rw [hahead.size_eq]
      exact Nat.add_sub_cancel_left ..
    split at h
    · cases h
    · next stop hstop =>
      rw [hleft] at hstop
      obtain ⟨form, after, rfl, hzero, rfl⟩ := (findZero_eq_some_iff hahead).mp hstop
      split at h
      · next ht =>
        cases h
        have hform : s.toByteArray = ⟨form.toArray⟩ :=
          (Text.toByteArray_of_decode ht).trans hahead.extract_eq
        rw [hform]
        exact ⟨hzero, after, hahead⟩
      · cases h

theorem encode_append (front behind : List String) :
    encode (front ++ behind) =
      encode front ++ behind.flatMap fun s => s.toByteArray.data.toList ++ [0] := by
  simp [encode]

/-- From each character of a string on, its rest is found. -/
theorem get_encode {front behind : List String} {start rest : String}
    (hheap : heap.bytes = ⟨(encode (front ++ (start ++ rest) :: behind)).toArray⟩)
    (hzero : '\x00' ∉ rest.toList) :
    heap.get ((encode front).length + start.utf8ByteSize) = .ok rest := by
  have hahead : (Cursor.ofPosition ((encode front).length + start.utf8ByteSize)).Ahead heap.bytes
      (rest.toByteArray.data.toList ++
        0 :: behind.flatMap fun s => s.toByteArray.data.toList ++ [0]) := by
    refine ⟨encode front ++ start.toByteArray.data.toList, ?_, by simp [Cursor.ofPosition]⟩
    rw [hheap, encode_append]
    simp
  exact get_of_ahead (Text.zero_notMem_toByteArray hzero) hahead

/-- A string that is found lies in the heap with its zero byte, and is found wherever there are
these bytes. -/
theorem spelt_of_get (h : heap.get index = .ok s) :
    index + s.utf8ByteSize < heap.bytes.size ∧
    s.toByteArray = heap.bytes.extract index (index + s.utf8ByteSize) ∧
    Bytes.byte? heap.bytes (index + s.utf8ByteSize) = some 0 ∧
    ∀ other : StringHeap, index + s.utf8ByteSize < other.bytes.size →
      other.bytes.extract index (index + s.utf8ByteSize + 1) =
        heap.bytes.extract index (index + s.utf8ByteSize + 1) → other.get index = .ok s := by
  obtain ⟨hzero, after, hahead⟩ := exists_ahead_of_get h
  have hlength : s.toByteArray.data.toList.length = s.utf8ByteSize := by simp
  have hsize : heap.bytes.size = index + (s.utf8ByteSize + (after.length + 1)) := by
    rw [hahead.size_eq, List.length_append, List.length_cons, hlength]
    rfl
  have htext := hahead.extract_eq
  have hstop := hahead.advance.byte?_eq
  rw [hlength] at htext hstop
  refine ⟨by omega, htext.symm, hstop, fun other hother hsame => ?_⟩
  have hended : (Cursor.ofPosition index).Ahead heap.bytes
      ((s.toByteArray.data.toList ++ [0]) ++ after) := by
    rwa [List.append_assoc]
  have hlast : index + (s.toByteArray.data.toList ++ [0]).length = index + s.utf8ByteSize + 1 := by
    rw [List.length_append, hlength]
    rfl
  rw [← Nat.succ_le_iff, Nat.succ_eq_add_one, ← hlast] at hother
  rw [← hlast] at hsame
  obtain ⟨after', hahead'⟩ := Cursor.Ahead.exists_of_extract (c := .ofPosition index) hother
    (hsame.trans hended.extract_eq)
  rw [List.append_assoc] at hahead'
  exact get_of_ahead hzero hahead'

end StringHeap

/-- **Lookups undo the layout of a heap.** A heap of blobs that are shorter than `2 ^ 29` bytes is
accepted, and each blob is found where its entry starts; a heap of strings without the zero
character is accepted, and from each place between two characters of a string on, both ends
included, its rest is found. In any heap a blob or string that is found lies in the heap, behind its
length or in front of its zero byte, and is found in every heap that has the same bytes there. -/
theorem heaps_read_back :
    (∀ blobs : List (List UInt8), (∀ b ∈ blobs, b.length < 0x20000000) →
      ∃ heap, BlobHeap.ofBytes ⟨(BlobHeap.encode blobs).toArray⟩ = .ok heap ∧
        ∀ front b behind, blobs = front ++ b :: behind →
          heap.get (BlobHeap.encode front).length = .ok ⟨b.toArray⟩) ∧
    (∀ strings : List String, (∀ s ∈ strings, '\x00' ∉ s.toList) →
      ∃ heap, StringHeap.ofBytes ⟨(StringHeap.encode strings).toArray⟩ = .ok heap ∧
        ∀ front s behind, strings = front ++ s :: behind → ∀ start rest, s = start ++ rest →
          heap.get ((StringHeap.encode front).length + start.utf8ByteSize) = .ok rest) ∧
    (∀ (heap : BlobHeap) index b, heap.get index = .ok b →
      ∃ stop ≤ heap.bytes.size, index + b.size < stop ∧
        b = heap.bytes.extract (stop - b.size) stop ∧
        ∀ other : BlobHeap, stop ≤ other.bytes.size →
          other.bytes.extract index stop = heap.bytes.extract index stop →
          other.get index = .ok b) ∧
    ∀ (heap : StringHeap) index s, heap.get index = .ok s →
      index + s.utf8ByteSize < heap.bytes.size ∧
      s.toByteArray = heap.bytes.extract index (index + s.utf8ByteSize) ∧
      Bytes.byte? heap.bytes (index + s.utf8ByteSize) = some 0 ∧
      ∀ other : StringHeap, index + s.utf8ByteSize < other.bytes.size →
        other.bytes.extract index (index + s.utf8ByteSize + 1) =
          heap.bytes.extract index (index + s.utf8ByteSize + 1) → other.get index = .ok s := by
  refine ⟨fun blobs hlength => ?_, fun strings hzero => ?_,
    fun heap index b h => BlobHeap.exists_stop_of_get h,
    fun heap index s h => StringHeap.spelt_of_get h⟩
  · obtain ⟨heap, haccepted, hheap⟩ := BlobHeap.exists_ofBytes_encode blobs
    refine ⟨heap, haccepted, ?_⟩
    rintro front b behind rfl
    exact BlobHeap.get_encode hheap (hlength b (by simp))
  · obtain ⟨heap, haccepted, hheap⟩ := StringHeap.exists_ofBytes_encode strings
    refine ⟨heap, haccepted, ?_⟩
    rintro front s behind rfl start rest rfl
    refine StringHeap.get_encode hheap fun hrest => hzero (start ++ rest) (by simp) ?_
    rw [String.toList_append]
    exact List.mem_append_right _ hrest

/-- A blob with a length of two bytes in front of another one, and a word with a character of two
bytes. -/
theorem heaps_read_back_sample :
    (∃ heap, BlobHeap.ofBytes ⟨(BlobHeap.encode
        [[0x01, 0x02], List.replicate 0x80 0x07, [0x09]]).toArray⟩ = .ok heap ∧
      heap.get 134 = .ok ⟨#[0x09]⟩) ∧
    ∃ heap, StringHeap.ofBytes ⟨(StringHeap.encode ["Té", "Go"]).toArray⟩ = .ok heap ∧
      heap.get 2 = .ok "é" ∧ heap.get 4 = .ok "" ∧ heap.get 5 = .ok "Go" := by
  obtain ⟨blobs, hblobs, hblob⟩ := heaps_read_back.1
    [[0x01, 0x02], List.replicate 0x80 0x07, [0x09]] (by simp)
  obtain ⟨strings, hstrings, hstring⟩ := heaps_read_back.2.1 ["Té", "Go"] (by decide)
  have hplace : (BlobHeap.encode [[0x01, 0x02], List.replicate 0x80 0x07]).length = 134 := by
    decide +kernel
  refine ⟨⟨blobs, hblobs, ?_⟩, strings, hstrings, ?_, ?_, ?_⟩
  · exact hplace ▸ hblob [[0x01, 0x02], List.replicate 0x80 0x07] [0x09] [] rfl
  · exact hstring [] "Té" ["Go"] rfl "T" "é" rfl
  · exact hstring [] "Té" ["Go"] rfl "Té" "" rfl
  · exact hstring ["Té"] "Go" [] rfl "" "Go" rfl

end MethodAtlas
