import MethodAtlas.Bytes.Compressed

/-!
# What decoders consume

A decoder pays for what it reads if it consumes at least as many bytes as the value costs, and never
more than there are: `Decoder.Pays`. Decoders that are put together pay for the sum, so that a value
that is built while reading costs no more than the bytes that it was read from, and more values than
there are bytes cannot be read (`Decoder.Pays.many_fails`).
-/
namespace MethodAtlas

/-- What the values of a list cost together. -/
def total {α : Type} (cost : α → Nat) : List α → Nat
  | [] => 0
  | a :: as => cost a + total cost as

section total
variable {α : Type} {cost : α → Nat}

theorem total_append (as bs : List α) : total cost (as ++ bs) = total cost as + total cost bs := by
  induction as with
  | nil => exact (Nat.zero_add _).symm
  | cons a as ih => rw [List.cons_append, total, total, ih, Nat.add_assoc]

theorem total_push (as : Array α) (a : α) :
    total cost (as.push a).toList = total cost as.toList + cost a := by
  rw [Array.toList_push, total_append, total, total, Nat.add_zero]

theorem length_le_total (hcost : ∀ a, 0 < cost a) (as : List α) : as.length ≤ total cost as := by
  induction as with
  | nil => exact Nat.le_refl _
  | cons a as ih =>
    have ha := hcost a
    rw [List.length_cons, total]
    omega

end total

namespace Decoder
variable {α β : Type} {bytes : ByteArray} {c c' : Cursor}

theorem run_take (n : Nat) (bytes : ByteArray) (c : Cursor) : (take n).run bytes c =
    if c.position + n ≤ bytes.size then
      (.ok (bytes.extract c.position (c.position + n)), c.advance n)
    else (.error .outOfBounds, c) := rfl

theorem run_skip (n : Nat) (bytes : ByteArray) (c : Cursor) : (skip n).run bytes c =
    if c.position + n ≤ bytes.size then (.ok (), c.advance n) else (.error .outOfBounds, c) := rfl

theorem run_number (width : Nat) (bytes : ByteArray) (c : Cursor) :
    (number width).run bytes c =
      if c.position + width ≤ bytes.size then
        (.ok (Bytes.ofLE (bytes.extract c.position (c.position + width)).data.toList),
          c.advance width)
      else (.error .outOfBounds, c) := by
  rw [number, run_bind, run_take]
  by_cases h : c.position + width ≤ bytes.size
  · rw [if_pos h, if_pos h]
    rfl
  · rw [if_neg h, if_neg h]

/-- What a sequence of two reads answers was read by both. -/
theorem run_bind_eq_ok {d : Decoder α} {f : α → Decoder β} {b : β}
    (h : (d >>= f).run bytes c = (.ok b, c')) :
    ∃ a mid, d.run bytes c = (.ok a, mid) ∧ (f a).run bytes mid = (.ok b, c') := by
  rw [run_bind] at h
  split at h
  · next a mid hd => exact ⟨a, mid, hd, h⟩
  · cases h

theorem advance_of_run_number {width v : Nat}
    (h : (number width).run bytes c = (.ok v, c')) : c' = c.advance width := by
  rw [run_number] at h
  split at h <;> cases h
  rfl

/-- A value that is read one level deeper ends where it would end here. -/
theorem exists_run_of_nested {d : Decoder α} {a : α}
    (h : (nested d).run bytes c = (.ok a, c')) :
    ∃ last, d.run bytes ⟨c.position, c.depth + 1⟩ = (.ok a, last) ∧
      last.position = c'.position := by
  simp only [run, nested] at h
  split at h
  · next value last hd =>
    cases h
    exact ⟨last, hd, rfl⟩
  · cases h

/-- `n` values that are read are as many as were asked for. -/
theorem size_of_run_collect {d : Decoder α} {n : Nat} {done all : Array α}
    (h : (collect d n done).run bytes c = (.ok all, c')) : all.size = done.size + n := by
  induction n generalizing done c with
  | zero => cases h; rfl
  | succ n ih =>
    obtain ⟨a, mid, -, hrest⟩ := run_bind_eq_ok h
    rw [ih hrest, Array.size_push, Nat.add_assoc, Nat.add_comm 1]

/-- A decoder stays within the bytes and consumes at least as many of them as the value that it
reads costs, less those that were paid before. -/
def Pays (paid : Nat) (d : Decoder α) (cost : α → Nat) : Prop :=
  ∀ ⦃bytes : ByteArray⦄ ⦃c c' : Cursor⦄ ⦃a : α⦄, c.position ≤ bytes.size →
    d.run bytes c = (.ok a, c') →
    c.position ≤ c'.position ∧ c'.position ≤ bytes.size ∧
      c.position + cost a ≤ c'.position + paid

namespace Pays
variable {paid : Nat} {d : Decoder α} {f : α → Decoder β} {cost : α → Nat} {cost' : β → Nat}

theorem pure {a : α} (h : cost a ≤ paid) : Pays paid (Pure.pure a) cost := by
  intro bytes c c' b hc hrun
  cases hrun
  exact ⟨Nat.le_refl _, hc, Nat.add_le_add_left h _⟩

theorem fail (e : Fault) : Pays paid (Decoder.fail e) cost := by
  intro bytes c c' a _ hrun
  cases hrun

/-- What the first of two reads consumes is paid when the second one starts. -/
theorem bind (h : Pays 0 d cost) (hf : ∀ a, Pays (paid + cost a) (f a) cost') :
    Pays paid (d >>= f) cost' := by
  intro bytes c c' b hc hrun
  obtain ⟨a, mid, hfirst, hrest⟩ := run_bind_eq_ok hrun
  obtain ⟨hforward, hmid, hpaid⟩ := h hc hfirst
  obtain ⟨hforward', hc', hpaid'⟩ := hf a hmid hrest
  exact ⟨by omega, hc', by omega⟩

/-- A value that costs no more is paid, too. -/
theorem mono {paid' : Nat} {cost' : α → Nat} (h : Pays paid d cost) (hpaid : paid ≤ paid')
    (hcost : ∀ a, cost' a ≤ cost a) : Pays paid' d cost' := by
  intro bytes c c' a hc hrun
  obtain ⟨hforward, hc', hle⟩ := h hc hrun
  have hless := hcost a
  exact ⟨hforward, hc', by omega⟩

/-- What was read is made into something that costs no more. -/
theorem map {g : α → β} (h : Pays 0 d cost) (hg : ∀ a, cost' (g a) ≤ paid + cost a) :
    Pays paid (d >>= fun a => Pure.pure (g a)) cost' := h.bind fun a => .pure (hg a)

theorem take (n : Nat) : Pays 0 (Decoder.take n) fun _ => n := by
  intro bytes c c' a hc hrun
  rw [run_take] at hrun
  split at hrun
  · next hfits =>
    cases hrun
    exact ⟨Nat.le_add_right _ _, hfits, Nat.le_refl _⟩
  · cases hrun

theorem skip (n : Nat) : Pays 0 (Decoder.skip n) fun _ => n := by
  intro bytes c c' a hc hrun
  rw [run_skip] at hrun
  split at hrun
  · next hfits =>
    cases hrun
    exact ⟨Nat.le_add_right _ _, hfits, Nat.le_refl _⟩
  · cases hrun

/-- Looking at the next byte costs nothing. -/
theorem peek : Pays 0 Decoder.peek fun _ => 0 := by
  intro bytes c c' a hc hrun
  simp only [run, Decoder.peek] at hrun
  split at hrun <;> cases hrun
  exact ⟨Nat.le_refl _, hc, Nat.le_refl _⟩

theorem peek? : Pays 0 Decoder.peek? fun _ => 0 := by
  intro bytes c c' a hc hrun
  cases hrun
  exact ⟨Nat.le_refl _, hc, Nat.le_refl _⟩

theorem cursor : Pays 0 Decoder.cursor fun _ => 0 := by
  intro bytes c c' a hc hrun
  cases hrun
  exact ⟨Nat.le_refl _, hc, Nat.le_refl _⟩

theorem left : Pays 0 Decoder.left fun _ => 0 := by
  intro bytes c c' a hc hrun
  cases hrun
  exact ⟨Nat.le_refl _, hc, Nat.le_refl _⟩

theorem number (width : Nat) : Pays 0 (Decoder.number width) fun _ => width :=
  (take width).map fun _ => by omega

theorem byte : Pays 0 Decoder.byte fun _ => 1 :=
  peek.bind fun _ => (skip 1).map fun _ => by omega

/-- A compressed number takes a byte at least. -/
theorem compressed : Pays 0 Decoder.compressed fun _ => 1 := by
  refine byte.bind fun lead => ?_
  split
  · exact .pure (Nat.le_refl _)
  split
  · exact byte.map fun _ => by omega
  split
  · exact byte.bind fun _ => byte.bind fun _ => byte.map fun _ => by omega
  · exact .fail _

theorem token : Pays 0 Decoder.token fun _ => 1 := by
  refine compressed.bind fun value => ?_
  split
  · exact .pure (Nat.le_refl _)
  · exact .fail _

/-- An empty string and no string take a byte each. -/
theorem string : Pays 0 Decoder.string fun _ => 1 := by
  refine peek.bind fun lead => ?_
  split
  · exact (skip 1).map fun _ => by omega
  refine compressed.bind fun length => cursor.bind fun start => (take length).bind fun text => ?_
  split
  · exact .pure (by omega)
  · exact .fail _

theorem nested (h : Pays paid d cost) : Pays paid (Decoder.nested d) cost := by
  intro bytes c c' a hc hrun
  obtain ⟨last, hinner, hlast⟩ := exists_run_of_nested hrun
  rw [← hlast]
  exact h (c := ⟨c.position, c.depth + 1⟩) hc hinner

theorem collect (h : Pays 0 d cost) (n : Nat) (done : Array α) :
    Pays (total cost done.toList) (Decoder.collect d n done) fun all => total cost all.toList := by
  induction n generalizing done with
  | zero => exact .pure (Nat.le_refl _)
  | succ n ih =>
    refine h.bind fun a => ?_
    rw [← total_push]
    exact ih _

/-- Values that are read one after the other are all paid. -/
theorem many (h : Pays 0 d cost) (n : Nat) : Pays 0 (Decoder.many d n) (total cost) :=
  (h.collect n #[]).map fun _ => by omega

theorem passOver (h : Pays 0 d cost) (n : Nat) : Pays 0 (Decoder.passOver d n) fun _ => 0 := by
  induction n with
  | zero => exact .pure (Nat.le_refl _)
  | succ n ih => exact h.bind fun _ => ih.mono (Nat.zero_le _) fun _ => Nat.le_refl _

/-- More values than there are bytes left cannot be read if each of them costs something. -/
theorem many_fails (h : Pays 0 d cost) (hcost : ∀ a, 0 < cost a) {n : Nat}
    (hc : c.position ≤ bytes.size) (hn : bytes.size < c.position + n) :
    ∃ e c', (Decoder.many d n).run bytes c = (.error e, c') := by
  rcases hrun : (Decoder.many d n).run bytes c with ⟨e | as, c'⟩
  · exact ⟨e, c', rfl⟩
  · obtain ⟨-, hwithin, hpaid⟩ := h.many n hc hrun
    obtain ⟨all, mid, hall, hlist⟩ := run_bind_eq_ok hrun
    cases hlist
    have hlength := length_le_total hcost all.toList
    rw [Array.length_toList, size_of_run_collect hall, List.size_toArray,
      List.length_nil] at hlength
    omega

end Pays
end Decoder
end MethodAtlas
