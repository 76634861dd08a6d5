import MethodAtlas.Proofs.Bytes.Fronts
import MethodAtlas.Signature.Decoder

/-!
# Reading up to a sentinel

A decoder of signatures can stop at a sentinel, so that the bytes behind it stay unread:
`Decoder.ReadsUpTo`. What is read next is then read at the sentinel. A list is read back if none of
its values but the last stops early (`StopsLast`), and missed otherwise.
-/
namespace MethodAtlas

/-- All of some values are settled, and none but the last one stops early. -/
def StopsLast {ι : Type} (settled : ι → Prop) (stops : ι → Bool) : List ι → Prop
  | [] => True
  | i :: is => settled i ∧ (stops i = true → is = []) ∧ StopsLast settled stops is

theorem stopsLast_iff {ι : Type} {settled : ι → Prop} {stops : ι → Bool} {is : List ι} :
    StopsLast settled stops is ↔
      (∀ i ∈ is, settled i) ∧ ∀ i ∈ is.dropLast, stops i = false := by
  induction is with
  | nil => simp [StopsLast]
  | cons i is ih =>
    rw [StopsLast, ih, List.forall_mem_cons]
    cases is with
    | nil => simp
    | cons j is =>
      simp only [List.dropLast_cons_cons, List.forall_mem_cons (a := i), reduceCtorEq, imp_false,
        Bool.not_eq_true]
      exact ⟨fun ⟨hi, hstops, his, hends⟩ => ⟨⟨hi, his⟩, hstops, hends⟩,
        fun ⟨⟨hi, his⟩, hstops, hends⟩ => ⟨hi, hstops, his, hends⟩⟩

namespace Decoder
open Signature

/-- A text that starts with a sentinel. -/
def AtSentinel (text : List UInt8) : Prop := text.head? = some sentinel

theorem AtSentinel.append {text : List UInt8} (h : AtSentinel text) (after : List UInt8) :
    AtSentinel (text ++ after) := by
  rw [AtSentinel, List.head?_append, h]
  rfl

theorem AtSentinel.exists_eq {text : List UInt8} (h : AtSentinel text) :
    ∃ more, text = [sentinel] ++ more := by
  cases text with
  | nil => cases h
  | cons code more =>
    obtain rfl := Option.some.inj h
    exact ⟨more, rfl⟩

/-- A decoder reads a value from its stored form: from the whole form or, if it stops early, from
what stands in front of a sentinel in it. -/
inductive ReadsUpTo {α : Type} (d : Decoder α) : (stops : Bool) → List UInt8 → α → Prop
  | whole {form : List UInt8} {a : α} (h : Reads d form a) : ReadsUpTo d false form a
  | stopped {front back : List UInt8} {a : α} (hback : AtSentinel back)
    (h : ReadsBefore AtSentinel d front a) : ReadsUpTo d true (front ++ back) a

variable {α β : Type} {next : List UInt8 → Prop} {d : Decoder α} {e : Decoder β} {f : α → Decoder β}
  {stops stops' : Bool} {form form' front text : List UInt8} {a : α} {b : β}

/-- A front is read, and then up to a sentinel. What stands behind the front can be cut short, but
keeps its first byte. -/
theorem GoesOn.readsUpTo {d : Decoder β} (h : GoesOn next d front e) (he : ReadsUpTo e stops form b)
    (hnext : ∀ text, (∀ code, form.head? = some code → text.head? = some code) → next text) :
    ReadsUpTo d stops (front ++ form) b := by
  cases he with
  | whole he =>
    refine .whole (h.reads he fun after _ => hnext _ fun code hcode => ?_)
    rw [List.head?_append, hcode]
    rfl
  | @stopped form back _ hback he =>
    rw [← List.append_assoc]
    refine .stopped hback (h.reads he fun after hafter => hnext _ fun code hcode => ?_)
    rw [List.head?_append, hback] at hcode
    rw [List.head?_append, hafter, hcode]

theorem GoesOn.readsUpTo_nil {d : Decoder β} (h : GoesOn next d [] e)
    (he : ReadsUpTo e stops form b)
    (hnext : ∀ text, (∀ code, form.head? = some code → text.head? = some code) → next text) :
    ReadsUpTo d stops form b := h.readsUpTo he hnext

namespace ReadsUpTo

theorem reads (h : ReadsUpTo d false form a) : Reads d form a := by
  cases h with
  | whole h => exact h

theorem decode_eq (h : ReadsUpTo d stops form a) (rest : List UInt8) :
    d.decode ⟨(form ++ rest).toArray⟩ = .ok a := by
  cases h with
  | whole h => rw [decode, h.run_start trivial]
  | stopped hback h =>
    rw [decode, List.append_assoc, h.run_start (hback.append rest)]

/-- Behind a value that is read up to a sentinel, what follows it is read at a sentinel. -/
theorem bind (h : ReadsUpTo d stops form a)
    (hstop : stops = true → ReadsBefore AtSentinel (f a) [] b)
    (hmore : stops = false → ReadsUpTo (f a) stops' form' b) :
    ReadsUpTo (d >>= f) (stops || stops') (form ++ form') b := by
  cases h with
  | whole h => exact (h.goesOn f).readsUpTo (hmore rfl) fun _ _ => trivial
  | stopped hback h =>
    have hboth := h.bind (hstop rfl) fun after hafter => hafter
    rw [List.append_nil] at hboth
    rw [List.append_assoc]
    exact .stopped (hback.append form') hboth

theorem map (h : ReadsUpTo d stops form a) (g : α → β) :
    ReadsUpTo (d >>= fun a => Pure.pure (g a)) stops form (g a) := by
  cases h with
  | whole h => exact .whole (h.map g)
  | stopped hback h => exact .stopped hback (h.map g)

theorem nested (h : ReadsUpTo d stops form a) : ReadsUpTo (Decoder.nested d) stops form a := by
  cases h with
  | whole h => exact .whole h.nested
  | stopped hback h => exact .stopped hback h.nested

/-- What follows a value is missed if it is missed there or, behind a value that is read up to a
sentinel, at any sentinel. -/
theorem misses_bind (h : ReadsUpTo d stops form a)
    (hstop : stops = true → ∀ text, AtSentinel text → Misses (f a) text b)
    (hmore : stops = false → Misses (f a) text b) : Misses (d >>= f) (form ++ text) b := by
  cases h with
  | whole h => exact (h.goesOn f).misses (hmore rfl) trivial
  | stopped hback h =>
    rw [List.append_assoc]
    exact (h.goesOn f).misses (hstop rfl _ (hback.append text)) (hback.append text)

end ReadsUpTo

/-! What was collected stays in front of what is collected. -/

theorem prefix_of_run_collect {bytes : ByteArray} {c c' : Cursor} {n : Nat} {done all : Array α}
    (h : (collect d n done).run bytes c = (.ok all, c')) : done.toList <+: all.toList := by
  induction n generalizing done c with
  | zero =>
    cases h
    exact List.prefix_refl _
  | succ n ih =>
    obtain ⟨a, mid, -, hrest⟩ := run_bind_eq_ok h
    have hpush := ih hrest
    rw [Array.toList_push] at hpush
    exact (List.prefix_append _ _).trans hpush

theorem prefix_of_run_collectParameters {type : Decoder SignatureType} {bytes : ByteArray}
    {c c' : Cursor} {n : Nat} {done all : Array (SignatureParameter SignatureType)}
    (h : (collectParameters type n done).run bytes c = (.ok all, c')) :
    done.toList <+: all.toList := by
  induction n generalizing done c with
  | zero =>
    cases h
    exact List.prefix_refl _
  | succ n ih =>
    obtain ⟨code, mid, -, hcode⟩ := run_bind_eq_ok h
    split at hcode
    · cases hcode
      exact List.prefix_refl _
    · obtain ⟨p, mid', -, hrest⟩ := run_bind_eq_ok hcode
      have hpush := ih hrest
      rw [Array.toList_push] at hpush
      exact (List.prefix_append _ _).trans hpush

theorem eq_of_push_prefix {done : Array α} {a a' : α} {as : List α}
    (h : (done.push a').toList <+: (done ++ (a :: as).toArray).toList) : a' = a := by
  rw [Array.toList_push, Array.toList_append, List.prefix_append_right_inj,
    List.cons_prefix_cons] at h
  exact h.1

section collect
variable {ι : Type} {settled : ι → Prop} {stops : ι → Bool} {encode : ι → List UInt8}
  {value : ι → α} {is : List ι}

/-- Forms one after the other are read back if none but the last one stops early. -/
theorem ReadsUpTo.collect
    (h : ∀ i ∈ is, settled i → ReadsUpTo d (stops i) (encode i) (value i))
    (hlast : StopsLast settled stops is) (done : Array α) :
    ReadsUpTo (collect d is.length done) (is.any stops) (is.flatMap encode)
      (done ++ (is.map value).toArray) := by
  induction is generalizing done with
  | nil =>
    rw [List.map_nil, Array.append_empty]
    exact .whole (.pure done)
  | cons i is ih =>
    obtain ⟨hi, hend, hlast⟩ := hlast
    obtain ⟨hread, hreads⟩ := List.forall_mem_cons.mp h
    have hdone : done ++ ((i :: is).map value).toArray =
        done.push (value i) ++ (is.map value).toArray := by simp
    rw [hdone, List.flatMap_cons, List.any_cons]
    refine (hread hi).bind (fun hstops => ?_) fun _ => ih hreads hlast _
    rw [hend hstops, List.map_nil, Array.append_empty]
    exact .pure _

/-- Forms one after the other are missed if one of them is, or if one in front of the last stops
early. -/
theorem Misses.collect
    (h : ∀ i ∈ is, settled i → ReadsUpTo d (stops i) (encode i) (value i))
    (hmisses : ∀ i ∈ is, ¬settled i → ∀ rest, Misses d (encode i ++ rest) (value i))
    (hsentinel : ∀ text, AtSentinel text → ∀ a, Misses d text a)
    (hlast : ¬StopsLast settled stops is) (done : Array α) (rest : List UInt8) :
    Misses (collect d is.length done) (is.flatMap encode ++ rest)
      (done ++ (is.map value).toArray) := by
  induction is generalizing done with
  | nil => exact absurd trivial hlast
  | cons i is ih =>
    obtain ⟨hread, hreads⟩ := List.forall_mem_cons.mp h
    obtain ⟨hmiss, hmisses⟩ := List.forall_mem_cons.mp hmisses
    rw [List.flatMap_cons, List.append_assoc, List.length_cons, Decoder.collect]
    by_cases hi : settled i
    · have hdone : done ++ ((i :: is).map value).toArray =
          done.push (value i) ++ (is.map value).toArray := by simp
      rw [hdone]
      refine (hread hi).misses_bind (fun hstops text htext => ?_) fun hstops => ?_
      · cases is with
        | nil => exact absurd ⟨hi, fun _ => rfl, trivial⟩ hlast
        | cons j is => exact .bind_of_all (hsentinel text htext)
      · refine ih hreads hmisses (fun hrest => hlast ⟨hi, fun htrue => ?_, hrest⟩) _
        exact Bool.noConfusion (hstops.symm.trans htrue)
    · refine (hmiss hi _).bind fun bytes c c' a hrun => ?_
      rw [List.map_cons] at hrun
      exact eq_of_push_prefix (prefix_of_run_collect hrun)

theorem ReadsUpTo.many
    (h : ∀ i ∈ is, settled i → ReadsUpTo d (stops i) (encode i) (value i))
    (hlast : StopsLast settled stops is) :
    ReadsUpTo (many d is.length) (is.any stops) (is.flatMap encode) (is.map value) := by
  have hall := (ReadsUpTo.collect h hlast #[]).map (·.toList)
  rwa [Array.empty_append] at hall

theorem Misses.many
    (h : ∀ i ∈ is, settled i → ReadsUpTo d (stops i) (encode i) (value i))
    (hmisses : ∀ i ∈ is, ¬settled i → ∀ rest, Misses d (encode i ++ rest) (value i))
    (hsentinel : ∀ text, AtSentinel text → ∀ a, Misses d text a)
    (hlast : ¬StopsLast settled stops is) (rest : List UInt8) :
    Misses (many d is.length) (is.flatMap encode ++ rest) (is.map value) := by
  have hinjective : Function.Injective (Array.toList : Array α → List α) :=
    fun _ _ => Array.toList_inj.mp
  have hall := (Misses.collect h hmisses hsentinel hlast #[] rest).map hinjective
  rwa [Array.empty_append] at hall

end collect
end Decoder
end MethodAtlas
