import MethodAtlas.Decoder

/-!
# Reading stored forms

A decoder reads a value from a stored form if it does so wherever the form stands, and leaves the
cursor right behind it: `Decoder.Reads`. A decoder that looks ahead does so only in front of some
bytes: `Decoder.ReadsBefore`. Decoders that are put together read the forms of their parts one
after the other. A function that goes along a list of stored values is a map, a concatenation, a
search or a bound (`Along`), which is how `Reads.many` takes it.
-/
namespace MethodAtlas

namespace Along
variable {α β : Type}

theorem eq_map {f : α → β} {g : List α → List β} (hnil : g [] = [])
    (hcons : ∀ a as, g (a :: as) = f a :: g as) (as : List α) : g as = as.map f := by
  induction as with
  | nil => exact hnil
  | cons a as ih => rw [hcons, ih, List.map_cons]

theorem eq_flatMap {f : α → List β} {g : List α → List β} (hnil : g [] = [])
    (hcons : ∀ a as, g (a :: as) = f a ++ g as) (as : List α) : g as = as.flatMap f := by
  induction as with
  | nil => exact hnil
  | cons a as ih => rw [hcons, ih, List.flatMap_cons]

theorem eq_any {f : α → Bool} {g : List α → Bool} (hnil : g [] = false)
    (hcons : ∀ a as, g (a :: as) = (f a || g as)) (as : List α) : g as = as.any f := by
  induction as with
  | nil => exact hnil
  | cons a as ih => rw [hcons, ih, List.any_cons]

theorem le_of_mem {f : α → Nat} {g : List α → Nat}
    (hcons : ∀ a as, g (a :: as) = max (f a) (g as)) {a : α} {as : List α} (h : a ∈ as) :
    f a ≤ g as := by
  induction as with
  | nil => cases h
  | cons b as ih =>
    rw [hcons]
    obtain rfl | h := List.mem_cons.mp h
    · exact Nat.le_max_left _ _
    · exact Nat.le_trans (ih h) (Nat.le_max_right _ _)

end Along

/-- The bytes from a cursor on. -/
def Cursor.Ahead (c : Cursor) (bytes : ByteArray) (text : List UInt8) : Prop :=
  ∃ before : List UInt8, bytes.data.toList = before ++ text ∧ before.length = c.position

namespace Cursor.Ahead
variable {c : Cursor} {bytes : ByteArray} {text form after : List UInt8}

theorem start (text : List UInt8) : Cursor.start.Ahead ⟨text.toArray⟩ text :=
  ⟨[], by simp, rfl⟩

theorem advance (h : c.Ahead bytes (form ++ after)) :
    (c.advance form.length).Ahead bytes after := by
  obtain ⟨before, hbytes, hposition⟩ := h
  exact ⟨before ++ form, by simp [hbytes], by simp [hposition]⟩

/-- The depth of a cursor does not matter. -/
theorem of_position {c' : Cursor} (h : c.Ahead bytes text) (hposition : c'.position = c.position) :
    c'.Ahead bytes text := by
  obtain ⟨before, hbytes, hbefore⟩ := h
  exact ⟨before, hbytes, hbefore.trans hposition.symm⟩

/-- The same bytes lie ahead one level deeper. -/
theorem deeper (h : c.Ahead bytes text) : Cursor.Ahead ⟨c.position, c.depth + 1⟩ bytes text :=
  h.of_position rfl

theorem size_eq (h : c.Ahead bytes text) : bytes.size = c.position + text.length := by
  obtain ⟨before, hbytes, hposition⟩ := h
  rw [← ByteArray.size_data, ← Array.length_toList, hbytes, List.length_append, hposition]

theorem byte?_eq (h : c.Ahead bytes text) : Bytes.byte? bytes c.position = text.head? := by
  have hsize := h.size_eq
  obtain ⟨before, hbytes, hposition⟩ := h
  cases text with
  | nil => simp [Bytes.byte?, hsize]
  | cons b text =>
    have hb : bytes.data.toList[c.position]? = some b := by simp [hbytes, ← hposition]
    obtain ⟨hlt, hget⟩ := List.getElem?_eq_some_iff.mp hb
    rw [Bytes.byte?, dif_pos (by simpa using hlt)]
    exact congrArg some hget

theorem extract_eq (h : c.Ahead bytes (form ++ after)) :
    bytes.extract c.position (c.position + form.length) = ⟨form.toArray⟩ := by
  obtain ⟨before, hbytes, hposition⟩ := h
  apply ByteArray.ext
  apply Array.toList_inj.mp
  simp [ByteArray.data_extract, hbytes, ← hposition]

theorem exists_of_le (h : c.position ≤ bytes.size) : ∃ text, c.Ahead bytes text := by
  refine ⟨bytes.data.toList.drop c.position, bytes.data.toList.take c.position, by simp, ?_⟩
  exact List.length_take_of_le (by simpa using h)

/-- What lies ahead starts with as many bytes as there is room for. -/
theorem exists_append {n : Nat} (h : c.Ahead bytes text) (hfit : c.position + n ≤ bytes.size) :
    ∃ form after, text = form ++ after ∧ form.length = n := by
  have hlength : n ≤ text.length := by
    rw [h.size_eq] at hfit
    exact Nat.add_le_add_iff_left.mp hfit
  exact ⟨text.take n, text.drop n, (List.take_append_drop n text).symm,
    List.length_take_of_le hlength⟩

/-- Bytes that are found at a position lie ahead there. -/
theorem exists_of_extract (hfit : c.position + form.length ≤ bytes.size)
    (h : bytes.extract c.position (c.position + form.length) = ⟨form.toArray⟩) :
    ∃ after, c.Ahead bytes (form ++ after) := by
  obtain ⟨text, htext⟩ := exists_of_le (Nat.le_of_add_right_le hfit)
  obtain ⟨front, after, rfl, hlength⟩ := htext.exists_append hfit
  have hfront := htext.extract_eq
  rw [hlength, h] at hfront
  obtain rfl : form = front := by simpa using congrArg (·.data.toList) hfront
  exact ⟨after, htext⟩

end Cursor.Ahead

namespace Decoder
variable {α β : Type} {next next' : List UInt8 → Prop} {d : Decoder α} {f : α → Decoder β}
  {form form' : List UInt8} {a : α} {b : β}

/-- A decoder reads a value from its stored form in front of all bytes that `next` allows, and
leaves the cursor behind the form. -/
def ReadsBefore (next : List UInt8 → Prop) (d : Decoder α) (form : List UInt8) (a : α) : Prop :=
  ∀ ⦃bytes : ByteArray⦄ ⦃c : Cursor⦄ ⦃after : List UInt8⦄, next after →
    c.Ahead bytes (form ++ after) → d.run bytes c = (.ok a, c.advance form.length)

/-- A decoder reads a value from its stored form, whatever follows it. -/
abbrev Reads (d : Decoder α) (form : List UInt8) (a : α) : Prop :=
  ReadsBefore (fun _ => True) d form a

/-- A decoder reads a form at the start of a byte string. -/
theorem ReadsBefore.run_start (h : ReadsBefore next d form a) {after : List UInt8}
    (hnext : next after) : d.run ⟨(form ++ after).toArray⟩ .start = (.ok a, ⟨form.length, 0⟩) := by
  rw [h hnext (.start _)]
  simp [Cursor.advance, Cursor.start]

namespace ReadsBefore

theorem mono (h : ReadsBefore next d form a) (hnext : ∀ after, next' after → next after) :
    ReadsBefore next' d form a := fun _ _ after hafter => h (hnext after hafter)

theorem pure (a : α) : ReadsBefore next (Pure.pure a) [] a := fun _ _ _ _ _ => rfl

/-- Two forms are read one after the other, if the first one can be read in front of the second. -/
theorem bind (h : ReadsBefore next d form a) (h' : ReadsBefore next' (f a) form' b)
    (hnext : ∀ after, next' after → next (form' ++ after)) :
    ReadsBefore next' (d >>= f) (form ++ form') b := by
  intro bytes c after hafter hahead
  rw [List.append_assoc] at hahead
  rw [run_bind, h (hnext after hafter) hahead]
  dsimp only
  rw [h' hafter hahead.advance, Cursor.advance_advance, List.length_append]

/-- What was read is made into something else. -/
theorem map (h : ReadsBefore next d form a) (g : α → β) :
    ReadsBefore next (d >>= fun a => Pure.pure (g a)) form (g a) := by
  have hpure : ReadsBefore next (Pure.pure (g a)) [] (g a) := pure (g a)
  have hbind := h.bind (f := fun a => Pure.pure (g a)) hpure fun _ hafter => hafter
  rwa [List.append_nil] at hbind

end ReadsBefore

namespace Reads

theorem bind (h : Reads d form a) (h' : ReadsBefore next (f a) form' b) :
    ReadsBefore next (d >>= f) (form ++ form') b :=
  ReadsBefore.bind h h' fun _ _ => trivial

/-- What was read decides the value, and no more is read. -/
theorem bind_nil (h : Reads d form a) (h' : ReadsBefore next (f a) [] b) :
    ReadsBefore next (d >>= f) form b := by
  have hbind := h.bind h'
  rwa [List.append_nil] at hbind

theorem take (form : List UInt8) : Reads (take form.length) form ⟨form.toArray⟩ := by
  intro bytes c after _ hahead
  have hfits : c.position + form.length ≤ bytes.size := by
    rw [hahead.size_eq, List.length_append]
    omega
  simp only [run, Decoder.take, if_pos hfits, hahead.extract_eq]

theorem skip (form : List UInt8) : Reads (skip form.length) form () := by
  intro bytes c after _ hahead
  have hfits : c.position + form.length ≤ bytes.size := by
    rw [hahead.size_eq, List.length_append]
    omega
  simp only [run, Decoder.skip, if_pos hfits]

theorem number (form : List UInt8) : Reads (number form.length) form (Bytes.ofLE form) :=
  (take form).map fun bytes => Bytes.ofLE bytes.data.toList

/-- A number that fits is read back. -/
theorem toLE {w n : Nat} (h : n < 1 <<< (8 * w)) : Reads (Decoder.number w) (Bytes.toLE w n) n := by
  have hnumber := number (Bytes.toLE w n)
  rwa [Bytes.length_toLE, Bytes.ofLE_toLE_of_lt h] at hnumber

end Reads

namespace ReadsBefore

/-- Looking at the next byte reads nothing. -/
theorem peek (code : UInt8) : ReadsBefore (·.head? = some code) peek [] code := by
  intro bytes c after hafter hahead
  simp only [run, Decoder.peek, hahead.byte?_eq, List.nil_append, hafter]
  rfl

theorem peek? (code? : Option UInt8) : ReadsBefore (·.head? = code?) peek? [] code? := by
  intro bytes c after hafter hahead
  simp only [run, Decoder.peek?, hahead.byte?_eq, List.nil_append, hafter]
  rfl

/-- Looking at more bytes than one reads nothing either. -/
theorem lookahead (n : Nat) (text : List UInt8) :
    ReadsBefore (· = text) (lookahead n) [] (text.take n) := by
  rintro bytes c after rfl hahead
  have hsize := hahead.size_eq
  obtain ⟨before, hbytes, hposition⟩ := hahead
  simp only [run, Decoder.lookahead, List.length_nil, Cursor.advance_zero, Prod.mk.injEq,
    Except.ok.injEq, and_true]
  simp [ByteArray.data_extract, hbytes, ← hposition, hsize]

/-- A form is not missed by asking for no more bytes than there are from it on. -/
theorem need_bind {n : Nat} {d : Decoder β}
    (hn : ∀ after, next after → n ≤ form.length + after.length)
    (h : ReadsBefore next d form b) : ReadsBefore next (do Decoder.need n; d) form b := by
  intro bytes c after hafter hahead
  have hfits : c.position + n ≤ bytes.size := by
    rw [hahead.size_eq, List.length_append]
    exact Nat.add_le_add_left (hn after hafter) _
  have hneed : (Decoder.need n).run bytes c = (.ok (), c) := by
    simp only [run, Decoder.need, if_pos hfits]
  rw [run_bind, hneed]
  exact h hafter hahead

/-- What depends on the number of bytes left is read if it is read for every number of bytes that
holds the form. -/
theorem left_bind {f : Nat → Decoder β} (h : ∀ n, form.length ≤ n → ReadsBefore next (f n) form b) :
    ReadsBefore next (left >>= f) form b := by
  intro bytes c after hafter hahead
  have hleft : form.length ≤ bytes.size - c.position := by
    rw [hahead.size_eq, List.length_append]
    omega
  exact h _ hleft hafter hahead

/-- What depends on the cursor is read if it is read for every cursor. -/
theorem cursor_bind {f : Cursor → Decoder β} (h : ∀ start, ReadsBefore next (f start) form b) :
    ReadsBefore next (cursor >>= f) form b :=
  fun _ c _ hafter hahead => h c hafter hahead

/-- A nested value is read at the depth around it again. -/
theorem nested (h : ReadsBefore next d form a) : ReadsBefore next (nested d) form a := by
  intro bytes c after hafter hahead
  have hinner := h hafter hahead.deeper
  rw [run] at hinner
  simp only [run, Decoder.nested, hinner]
  rfl

end ReadsBefore

namespace Reads

theorem byte (code : UInt8) : Reads byte [code] code :=
  ReadsBefore.bind (ReadsBefore.peek code) ((skip [code]).map fun _ => code) fun _ _ => rfl

/-- A byte decides what is read behind it. -/
theorem byte_bind {f : UInt8 → Decoder β} {code : UInt8} (h : ReadsBefore next (f code) form b) :
    ReadsBefore next (Decoder.byte >>= f) (code :: form) b := (byte code).bind h

/-- A next byte that is known decides what is read from it on. -/
theorem peek_bind {f : UInt8 → Decoder β} (code : UInt8)
    (hcode : ∀ after, next after → (form ++ after).head? = some code)
    (h : ReadsBefore next (f code) form b) : ReadsBefore next (Decoder.peek >>= f) form b :=
  ReadsBefore.bind (ReadsBefore.peek code) h hcode

theorem peek?_bind {f : Option UInt8 → Decoder β} (code? : Option UInt8)
    (hcode : ∀ after, next after → (form ++ after).head? = code?)
    (h : ReadsBefore next (f code?) form b) : ReadsBefore next (Decoder.peek? >>= f) form b :=
  ReadsBefore.bind (ReadsBefore.peek? code?) h hcode

variable {ι : Type} {encode : ι → List UInt8} {value : ι → α}

theorem collect (is : List ι) (h : ∀ i ∈ is, Reads d (encode i) (value i)) (done : Array α) :
    Reads (collect d is.length done) (is.flatMap encode) (done ++ (is.map value).toArray) := by
  induction is generalizing done with
  | nil => simpa [Decoder.collect] using ReadsBefore.pure done
  | cons i is ih =>
    have hrest := ih (fun i hi => h i (List.mem_cons_of_mem _ hi)) (done.push (value i))
    have hdone : done ++ ((i :: is).map value).toArray =
        done.push (value i) ++ (is.map value).toArray := by simp
    rw [hdone]
    exact (h i List.mem_cons_self).bind hrest

/-- Forms one after the other are read one after the other. -/
theorem many (is : List ι) (h : ∀ i ∈ is, Reads d (encode i) (value i)) :
    Reads (many d is.length) (is.flatMap encode) (is.map value) := by
  have hvalues : (#[] ++ (is.map value).toArray).toList = is.map value := by simp
  rw [← hvalues]
  exact (collect is h #[]).map (·.toList)

theorem passOver (is : List ι) (h : ∀ i ∈ is, Reads d (encode i) (value i)) :
    Reads (passOver d is.length) (is.flatMap encode) () := by
  induction is with
  | nil => exact .pure ()
  | cons i is ih =>
    exact (h i List.mem_cons_self).bind (ih fun i hi => h i (List.mem_cons_of_mem _ hi))

end Reads
end Decoder
end MethodAtlas
