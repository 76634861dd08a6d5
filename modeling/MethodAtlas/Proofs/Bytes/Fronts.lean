import MethodAtlas.Proofs.Bytes.Consumption
import MethodAtlas.Proofs.Bytes.Reads

/-!
# The front of a form

A decoder that has read the front of a form goes on as another one: `Decoder.GoesOn`. So the value
of the whole form is read if the other decoder reads it from the rest (`GoesOn.reads`), and it is
not if the other one misses it there: `Decoder.Misses`. A part that is missed is missing from all
that is made of it (`Misses.bind`).
-/
namespace MethodAtlas.Decoder

variable {α β : Type} {next next' : List UInt8 → Prop} {d e : Decoder β} {front text : List UInt8}
  {b : β}

/-- In front of all bytes that `next` allows, a decoder reads a front and goes on as another one. -/
def GoesOn (next : List UInt8 → Prop) (d : Decoder β) (front : List UInt8) (e : Decoder β) : Prop :=
  ∀ ⦃bytes : ByteArray⦄ ⦃c : Cursor⦄ ⦃after : List UInt8⦄, next after →
    c.Ahead bytes (front ++ after) → d.run bytes c = e.run bytes (c.advance front.length)

/-- A decoder does not read a value from a text on. -/
def Misses (d : Decoder β) (text : List UInt8) (b : β) : Prop :=
  ∀ ⦃bytes : ByteArray⦄ ⦃c c' : Cursor⦄, c.Ahead bytes text → d.run bytes c ≠ (.ok b, c')

theorem Misses.decode_ne (h : Misses d text b) : d.decode ⟨text.toArray⟩ ≠ .ok b := by
  intro hdecode
  exact h (.start text) (Prod.ext hdecode rfl)

/-- What was read decides how a decoder goes on. -/
theorem ReadsBefore.goesOn {d : Decoder α} {a : α} (h : ReadsBefore next d front a)
    (f : α → Decoder β) : GoesOn next (d >>= f) front (f a) := by
  intro bytes c after hafter hahead
  rw [run_bind, h hafter hahead]

namespace GoesOn

theorem trans {e' : Decoder β} {more : List UInt8} (h : GoesOn next d front e)
    (h' : GoesOn next' e more e') (hnext : ∀ after, next' after → next (more ++ after)) :
    GoesOn next' d (front ++ more) e' := by
  intro bytes c after hafter hahead
  rw [List.append_assoc] at hahead
  rw [h (hnext after hafter) hahead, h' hafter hahead.advance, Cursor.advance_advance,
    List.length_append]

theorem reads {form : List UInt8} (h : GoesOn next d front e) (h' : ReadsBefore next' e form b)
    (hnext : ∀ after, next' after → next (form ++ after)) :
    ReadsBefore next' d (front ++ form) b := by
  intro bytes c after hafter hahead
  rw [List.append_assoc] at hahead
  rw [h (hnext after hafter) hahead, h' hafter hahead.advance, Cursor.advance_advance,
    List.length_append]

theorem misses (h : GoesOn next d front e) (h' : Misses e text b) (hnext : next text) :
    Misses d (front ++ text) b := by
  intro bytes c c' hahead
  rw [h hnext hahead]
  exact h' hahead.advance

/-! Where nothing is read before a decoder goes on, the front is left out. -/

theorem trans_nil {e' : Decoder β} {more : List UInt8} (h : GoesOn next d [] e)
    (h' : GoesOn next' e more e') (hnext : ∀ after, next' after → next (more ++ after)) :
    GoesOn next' d more e' := h.trans h' hnext

theorem reads_nil {form : List UInt8} (h : GoesOn next d [] e) (h' : ReadsBefore next' e form b)
    (hnext : ∀ after, next' after → next (form ++ after)) : ReadsBefore next' d form b :=
  h.reads h' hnext

theorem misses_nil (h : GoesOn next d [] e) (h' : Misses e text b) (hnext : next text) :
    Misses d text b := h.misses h' hnext

end GoesOn

namespace Misses

theorem fail (fault : Fault) : Misses (Decoder.fail fault) text b := by
  intro bytes c c' _ hrun
  cases hrun

/-- What can only be made of a value is missed where the value is. -/
theorem bind {d : Decoder α} {f : α → Decoder β} {a : α} (h : Misses d text a)
    (hf : ∀ ⦃bytes c c' a'⦄, (f a').run bytes c = (.ok b, c') → a' = a) :
    Misses (d >>= f) text b := by
  intro bytes c c' hahead hrun
  obtain ⟨a', mid, hd, hrest⟩ := run_bind_eq_ok hrun
  obtain rfl := hf hrest
  exact h hahead hd

/-- Nothing is made of a value where there is none. -/
theorem bind_of_all {d : Decoder α} {f : α → Decoder β} (h : ∀ a, Misses d text a) :
    Misses (d >>= f) text b := by
  intro bytes c c' hahead hrun
  obtain ⟨a, mid, hd, -⟩ := run_bind_eq_ok hrun
  exact h a hahead hd

theorem map {d : Decoder α} {a : α} (h : Misses d text a) {g : α → β} (hg : Function.Injective g) :
    Misses (d >>= fun a => pure (g a)) text (g a) := by
  refine h.bind fun bytes c c' a' hrun => hg ?_
  exact Except.ok.inj (Prod.mk.inj hrun).1

theorem nested (h : Misses d text b) : Misses (Decoder.nested d) text b := by
  intro bytes c c' hahead hrun
  obtain ⟨last, hinner, -⟩ := exists_run_of_nested hrun
  exact h hahead.deeper hinner

end Misses
end MethodAtlas.Decoder
