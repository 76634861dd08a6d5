import MethodAtlas.Proofs.Bytes.Compressed
import MethodAtlas.Proofs.Bytes.Consumption

/-!
# Operations at a cursor

The operations that blobs are read with, one after the other at one cursor, whether they read a
value or fail. A decoder that goes on never moves back nor beyond the bytes
(`Decoder.GoesForward`), and what it reads it reads from the bytes that it passes over and from no
others (`Decoder.ReadsOwn`): wherever these stand, it reads the same value from them. So every
operation of every run is as `Step.Lawful` says: `operations_lawful`.
-/
namespace MethodAtlas

namespace Decoder
variable {α β : Type} {bytes : ByteArray} {c c' : Cursor} {d : Decoder α} {f : α → Decoder β}

theorem run_peek (bytes : ByteArray) (c : Cursor) : peek.run bytes c =
    ((Bytes.byte? bytes c.position).elim (.error .outOfBounds) .ok, c) := by
  rw [run, peek]
  cases Bytes.byte? bytes c.position <;> rfl

/-! ### Moving forward -/

/-- Whether it reads a value or fails, a decoder moves neither back nor beyond the bytes. -/
def GoesForward (d : Decoder α) : Prop :=
  ∀ ⦃bytes : ByteArray⦄ ⦃c : Cursor⦄, c.position ≤ bytes.size →
    c.position ≤ (d.run bytes c).2.position ∧ (d.run bytes c).2.position ≤ bytes.size

namespace GoesForward

/-- A decoder that stays where it is. -/
theorem of_stays (h : ∀ bytes c, (d.run bytes c).2 = c) : GoesForward d := by
  intro bytes c hc
  rw [h]
  exact ⟨Nat.le_refl _, hc⟩

theorem pure (a : α) : GoesForward (Pure.pure a) := of_stays fun _ _ => rfl

theorem fail (e : Fault) : GoesForward (Decoder.fail e : Decoder α) := of_stays fun _ _ => rfl

theorem cursor : GoesForward Decoder.cursor := of_stays fun _ _ => rfl

theorem peek : GoesForward Decoder.peek := by
  refine of_stays fun bytes c => ?_
  rw [run_peek]

/-- Where the first of two decoders fails it is the last that moves. -/
theorem bind (h : GoesForward d) (hf : ∀ a, GoesForward (f a)) : GoesForward (d >>= f) := by
  intro bytes c hc
  obtain ⟨hback, hbeyond⟩ := h hc
  rw [run_bind]
  rcases hd : d.run bytes c with ⟨e | a, mid⟩ <;> rw [hd] at hback hbeyond
  · exact ⟨hback, hbeyond⟩
  · obtain ⟨hback', hbeyond'⟩ := hf a hbeyond
    exact ⟨Nat.le_trans hback hback', hbeyond'⟩

theorem take (n : Nat) : GoesForward (Decoder.take n) := by
  intro bytes c hc
  rw [run_take]
  split
  · next hfits => exact ⟨Nat.le_add_right _ _, hfits⟩
  · exact ⟨Nat.le_refl _, hc⟩

theorem skip (n : Nat) : GoesForward (Decoder.skip n) := by
  intro bytes c hc
  rw [run_skip]
  split
  · next hfits => exact ⟨Nat.le_add_right _ _, hfits⟩
  · exact ⟨Nat.le_refl _, hc⟩

theorem number (width : Nat) : GoesForward (Decoder.number width) :=
  (take width).bind fun _ => .pure _

theorem byte : GoesForward Decoder.byte :=
  peek.bind fun b => (skip 1).bind fun _ => .pure b

theorem compressed : GoesForward Decoder.compressed := by
  refine byte.bind fun lead => ?_
  split
  · exact .pure _
  split
  · exact byte.bind fun _ => .pure _
  split
  · exact byte.bind fun _ => byte.bind fun _ => byte.bind fun _ => .pure _
  · exact .fail _

theorem token : GoesForward Decoder.token := by
  refine compressed.bind fun value => ?_
  split
  · exact .pure _
  · exact .fail _

theorem string : GoesForward Decoder.string := by
  refine peek.bind fun lead => ?_
  split
  · exact (skip 1).bind fun _ => .pure none
  refine compressed.bind fun length => cursor.bind fun start => (take length).bind fun text => ?_
  split
  · exact .pure _
  · exact .fail _

end GoesForward

/-! ### Reading what is passed over -/

/-- What a decoder reads somewhere it reads from the bytes that it passes over there, wherever these
stand. -/
def ReadsOwn (d : Decoder α) : Prop :=
  ∀ ⦃bytes : ByteArray⦄ ⦃c c' : Cursor⦄ ⦃a : α⦄ ⦃text : List UInt8⦄, c.Ahead bytes text →
    d.run bytes c = (.ok a, c') →
    ∃ form after, text = form ++ after ∧ c' = c.advance form.length ∧ Reads d form a

namespace ReadsOwn

/-- It is enough to tell the bytes that some value is read from. -/
theorem of_reads (h : ∀ ⦃bytes c c' a text⦄, c.Ahead bytes text → d.run bytes c = (.ok a, c') →
    ∃ form after b, text = form ++ after ∧ Reads d form b) : ReadsOwn d := by
  intro bytes c c' a text hahead hrun
  obtain ⟨form, after, b, rfl, hreads⟩ := h hahead hrun
  have hsame := hreads trivial hahead
  rw [hrun] at hsame
  cases hsame
  exact ⟨form, after, rfl, rfl, hreads⟩

theorem pure (a : α) : ReadsOwn (Pure.pure a) :=
  of_reads fun _ _ _ _ text _ _ => ⟨[], text, a, rfl, .pure a⟩

theorem fail (e : Fault) : ReadsOwn (Decoder.fail e : Decoder α) := by
  intro bytes c c' a text _ hrun
  cases hrun

theorem bind (h : ReadsOwn d) (hf : ∀ a, ReadsOwn (f a)) : ReadsOwn (d >>= f) := by
  intro bytes c c' b text hahead hrun
  obtain ⟨a, mid, hfirst, hrest⟩ := run_bind_eq_ok hrun
  obtain ⟨form, text', rfl, rfl, hreads⟩ := h hahead hfirst
  obtain ⟨form', after, rfl, rfl, hreads'⟩ := hf a hahead.advance hrest
  refine ⟨form ++ form', after, (List.append_assoc ..).symm, ?_, hreads.bind hreads'⟩
  rw [Cursor.advance_advance, List.length_append]

theorem take (n : Nat) : ReadsOwn (Decoder.take n) := by
  refine of_reads fun bytes c c' a text hahead hrun => ?_
  rw [run_take] at hrun
  split at hrun
  · next hfits =>
    obtain ⟨form, after, rfl, rfl⟩ := hahead.exists_append hfits
    exact ⟨form, after, _, rfl, Reads.take form⟩
  · cases hrun

theorem skip (n : Nat) : ReadsOwn (Decoder.skip n) := by
  refine of_reads fun bytes c c' a text hahead hrun => ?_
  rw [run_skip] at hrun
  split at hrun
  · next hfits =>
    obtain ⟨form, after, rfl, rfl⟩ := hahead.exists_append hfits
    exact ⟨form, after, _, rfl, Reads.skip form⟩
  · cases hrun

theorem number (width : Nat) : ReadsOwn (Decoder.number width) :=
  (take width).bind fun _ => .pure _

/-- A byte that is looked at is the first of those ahead. -/
theorem head?_of_run_peek {b : UInt8} {text : List UInt8} (h : c.Ahead bytes text)
    (hrun : Decoder.peek.run bytes c = (.ok b, c')) : text.head? = some b ∧ c' = c := by
  rw [run_peek, h.byte?_eq] at hrun
  cases hhead : text.head? with
  | none => rw [hhead] at hrun; cases hrun
  | some lead => rw [hhead] at hrun; cases hrun; exact ⟨rfl, rfl⟩

/-- Looking at the next byte alone reads nothing, but a byte that is then passed over is read. -/
theorem byte : ReadsOwn Decoder.byte := by
  refine of_reads fun bytes c c' b text hahead hrun => ?_
  obtain ⟨lead, mid, hpeek, -⟩ := run_bind_eq_ok hrun
  obtain ⟨more, rfl⟩ := List.head?_eq_some_iff.mp (head?_of_run_peek hahead hpeek).1
  exact ⟨[lead], more, lead, rfl, Reads.byte lead⟩

theorem compressed : ReadsOwn Decoder.compressed := by
  refine byte.bind fun lead => ?_
  split
  · exact .pure _
  split
  · exact byte.bind fun _ => .pure _
  split
  · exact byte.bind fun _ => byte.bind fun _ => byte.bind fun _ => .pure _
  · exact .fail _

theorem token : ReadsOwn Decoder.token := by
  refine compressed.bind fun value => ?_
  split
  · exact .pure _
  · exact .fail _

/-- Text of some length, the place of which is told only where it is damaged. -/
theorem text (length : Nat) : ReadsOwn (do
    let start ← Decoder.cursor
    let bytes ← Decoder.take length
    match Text.decode bytes with
    | .ok s => Pure.pure (some s)
    | .error damage => malformed (.text start.position damage)) := by
  refine of_reads fun bytes c c' s? text hahead hrun => ?_
  obtain ⟨start, mid, hstart, hrun⟩ := run_bind_eq_ok hrun
  cases hstart
  obtain ⟨taken, mid, htake, hrun⟩ := run_bind_eq_ok hrun
  obtain ⟨form, after, rfl, rfl, hreads⟩ := take length hahead htake
  split at hrun
  · next s hs =>
    refine ⟨form, after, some s, rfl, ReadsBefore.cursor_bind fun start => hreads.bind_nil ?_⟩
    rw [hs]
    exact .pure _
  · cases hrun

/-- The byte that is looked at first is the mark of no string or the first one of the length. -/
theorem string : ReadsOwn Decoder.string := by
  refine of_reads fun bytes c c' s? all hahead hrun => ?_
  obtain ⟨lead, mid, hpeek, hrest⟩ := run_bind_eq_ok hrun
  obtain ⟨hhead, rfl⟩ := head?_of_run_peek hahead hpeek
  obtain ⟨more, rfl⟩ := List.head?_eq_some_iff.mp hhead
  split at hrest
  · next hmark =>
    subst hmark
    have hmissing : Compressed.StorableString none := by rintro s ⟨⟩
    exact ⟨[0xFF], more, none, rfl, Reads.string hmissing⟩
  · next hmark =>
    obtain ⟨form, after, hform, -, hreads⟩ := (compressed.bind text) hahead hrest
    cases form with
    | nil =>
      -- A length cannot be read from no bytes.
      cases hreads trivial (.start ([] ++ []))
    | cons first form =>
      obtain ⟨rfl, -⟩ := List.cons.inj hform
      refine ⟨lead :: form, after, s?, hform, Reads.peek_bind lead (fun _ _ => rfl) ?_⟩
      rw [if_neg hmark]
      exact hreads

end ReadsOwn

/-! ### Staying on a fault -/

/-- A decoder that fails has consumed nothing. -/
def StaysOnFault (d : Decoder α) : Prop :=
  ∀ ⦃bytes : ByteArray⦄ ⦃c c' : Cursor⦄ ⦃e : Fault⦄, d.run bytes c = (.error e, c') → c' = c

namespace StaysOnFault

theorem peek : StaysOnFault Decoder.peek := by
  intro bytes c c' e hrun
  rw [run_peek] at hrun
  exact (Prod.mk.inj hrun).2.symm

theorem take (n : Nat) : StaysOnFault (Decoder.take n) := by
  intro bytes c c' e hrun
  rw [run_take] at hrun
  split at hrun <;> cases hrun
  rfl

theorem skip (n : Nat) : StaysOnFault (Decoder.skip n) := by
  intro bytes c c' e hrun
  rw [run_skip] at hrun
  split at hrun <;> cases hrun
  rfl

theorem number (width : Nat) : StaysOnFault (Decoder.number width) := by
  intro bytes c c' e hrun
  rw [run_number] at hrun
  split at hrun <;> cases hrun
  rfl

end StaysOnFault

/-! ### Compressed numbers -/

/-- A byte that is read moves the cursor by one. -/
theorem advance_of_run_byte {b : UInt8} (h : byte.run bytes c = (.ok b, c')) :
    c' = c.advance 1 := by
  obtain ⟨lead, mid, hpeek, h⟩ := run_bind_eq_ok h
  obtain ⟨done, last, hskip, hlast⟩ := run_bind_eq_ok h
  rw [run_peek] at hpeek
  rw [run_skip] at hskip
  cases hlast
  split at hskip <;> cases hskip
  rw [(Prod.mk.inj hpeek).2]

/-- A compressed number has at most 29 bits and takes one, two or four bytes. -/
theorem lt_of_run_compressed {n : Nat} (h : compressed.run bytes c = (.ok n, c')) :
    n < 0x20000000 ∧ ∃ size ∈ [1, 2, 4], c' = c.advance size := by
  obtain ⟨lead, first, hlead, h⟩ := run_bind_eq_ok h
  obtain rfl := advance_of_run_byte hlead
  split at h
  · next hsmall =>
    cases h
    rw [UInt8.lt_iff_toNat_lt] at hsmall
    exact ⟨Nat.lt_trans hsmall (by decide), 1, by simp, rfl⟩
  split at h
  · next hmedium =>
    obtain ⟨low, last, hlow, h⟩ := run_bind_eq_ok h
    cases h
    have hbound : lead.toNat < 0xC0 := UInt8.lt_iff_toNat_lt.mp hmedium
    have hbyte := low.toNat_lt
    exact ⟨by omega, 2, by simp, by rw [advance_of_run_byte hlow, Cursor.advance_advance]⟩
  split at h
  · next hlarge =>
    obtain ⟨b₁, c₁, h₁, h⟩ := run_bind_eq_ok h
    obtain ⟨b₂, c₂, h₂, h⟩ := run_bind_eq_ok h
    obtain ⟨b₃, c₃, h₃, h⟩ := run_bind_eq_ok h
    cases h
    have hbound : lead.toNat < 0xE0 := UInt8.lt_iff_toNat_lt.mp hlarge
    have hbyte₁ := b₁.toNat_lt
    have hbyte₂ := b₂.toNat_lt
    have hbyte₃ := b₃.toNat_lt
    refine ⟨by omega, 4, by simp, ?_⟩
    rw [advance_of_run_byte h₃, advance_of_run_byte h₂, advance_of_run_byte h₁]
    simp only [Cursor.advance_advance]
  · cases h

end Decoder

/-- What can be asked for at a cursor. Numbers of every kind are told by the bits that they are
stored in. -/
inductive Operation where
  | number (width : Nat)
  | peek
  | advance (length : Nat)
  | bytes (length : Nat)
  | compressed
  | token
  | string
deriving DecidableEq, Repr

namespace Operation

/-- What an operation answers. -/
def Value : Operation → Type
  | number _ => Nat
  | peek => UInt8
  | advance _ => Unit
  | bytes _ => ByteArray
  | compressed => Nat
  | token => Token
  | string => Option String

/-- An operation is done by a decoder. -/
def decoder : (o : Operation) → Decoder o.Value
  | number width => .number width
  | peek => .peek
  | advance length => .skip length
  | bytes length => .take length
  | compressed => .compressed
  | token => .token
  | string => .string

/-- Whether an operation that fails has consumed nothing; the others are made of several reads. -/
def isSingle : Operation → Bool
  | compressed | token | string => false
  | _ => true

theorem goesForward (o : Operation) : o.decoder.GoesForward := by
  cases o with
  | number width => exact .number width
  | peek => exact .peek
  | advance length => exact .skip length
  | bytes length => exact .take length
  | compressed => exact .compressed
  | token => exact .token
  | string => exact .string

theorem readsOwn {o : Operation} (h : o ≠ .peek) : o.decoder.ReadsOwn := by
  cases o with
  | number width => exact .number width
  | peek => exact absurd rfl h
  | advance length => exact .skip length
  | bytes length => exact .take length
  | compressed => exact .compressed
  | token => exact .token
  | string => exact .string

theorem staysOnFault {o : Operation} (h : o.isSingle) : o.decoder.StaysOnFault := by
  cases o with
  | number width => exact .number width
  | peek => exact .peek
  | advance length => exact .skip length
  | bytes length => exact .take length
  | compressed => cases h
  | token => cases h
  | string => cases h

end Operation

/-- An operation that was done: where it started, what it answered and where it ended. -/
structure Step where
  operation : Operation
  start : Cursor
  outcome : Except Fault operation.Value
  stop : Cursor

namespace Step

/-- An operation at a cursor. -/
def perform (bytes : ByteArray) (o : Operation) (c : Cursor) : Step :=
  ⟨o, c, (o.decoder.run bytes c).1, (o.decoder.run bytes c).2⟩

/-- Operations one after the other, each from where the one before it ended, whatever that one
answered. -/
def performAll (bytes : ByteArray) : List Operation → Cursor → List Step
  | [], _ => []
  | o :: os, c => perform bytes o c :: performAll bytes os (perform bytes o c).stop

/-- The bytes that a step passed over. -/
def passed (bytes : ByteArray) (s : Step) : List UInt8 :=
  (bytes.extract s.start.position s.stop.position).data.toList

/-- What holds of every operation at a cursor within the bytes. -/
structure Lawful (bytes : ByteArray) (s : Step) : Prop where
  forward : s.start.position ≤ s.stop.position
  within : s.stop.position ≤ bytes.size
  /-- A single read that fails leaves the cursor alone. -/
  stays : s.operation.isSingle → ∀ e, s.outcome = .error e → s.stop = s.start
  /-- What is read is read from the bytes that are passed over, wherever these stand. -/
  own : s.operation ≠ .peek → ∀ v, s.outcome = .ok v →
    s.operation.decoder.Reads (s.passed bytes) v

theorem lawful_perform {bytes : ByteArray} {c : Cursor} (hc : c.position ≤ bytes.size)
    (o : Operation) : (perform bytes o c).Lawful bytes where
  forward := (o.goesForward hc).1
  within := (o.goesForward hc).2
  stays h e herror := Operation.staysOnFault h (Prod.ext herror rfl)
  own := by
    intro hpeek v hv
    obtain ⟨text, hahead⟩ := Cursor.Ahead.exists_of_le hc
    obtain ⟨form, after, rfl, hstop, hreads⟩ :=
      Operation.readsOwn hpeek hahead (Prod.ext hv rfl)
    replace hstop : (perform bytes o c).stop = c.advance form.length := hstop
    have hpassed : (perform bytes o c).passed bytes = form := by
      rw [passed, hstop]
      exact congrArg (·.data.toList) hahead.extract_eq
    rw [hpassed]
    exact hreads

/-- What one step keeps, a run keeps: each step starts within the bytes. -/
theorem lawful_of_mem_performAll {bytes : ByteArray} {os : List Operation} {c : Cursor}
    (hc : c.position ≤ bytes.size) {s : Step} (h : s ∈ performAll bytes os c) :
    s.Lawful bytes := by
  induction os generalizing c with
  | nil => cases h
  | cons o os ih =>
    obtain rfl | h := List.mem_cons.mp h
    · exact lawful_perform hc o
    · exact ih (lawful_perform hc o).within h

end Step

/-- **The laws of a cursor.** In every run of operations from the start of some bytes, whichever of
them fail, every step ends within the bytes and not before where it started, a single read that
fails leaves the cursor alone, and what is read but not only looked at depends on the bytes that are
passed over and on nothing else. A compressed number has at most 29 bits and takes one, two or four
bytes, and every such number is read back from its stored form, which is consumed. -/
theorem operations_lawful :
    (∀ bytes os, ∀ s ∈ Step.performAll bytes os .start, s.Lawful bytes) ∧
    (∀ bytes c c' n, Decoder.compressed.run bytes c = (.ok n, c') →
      n < 0x20000000 ∧ ∃ size ∈ [1, 2, 4], c' = c.advance size) ∧
    ∀ n < 0x20000000, Decoder.compressed.Reads (Compressed.number n) n :=
  ⟨fun _ _ _ h => Step.lawful_of_mem_performAll (Nat.zero_le _) h,
    fun _ _ _ _ h => Decoder.lt_of_run_compressed h, fun _ h => .compressed h⟩

/-- A number of four bytes, one that does not fit, a string that is cut off, a step that is far too
long and a missing string. -/
theorem operations_lawful_sample :
    let bytes : ByteArray := ⟨#[0xC0, 0x02, 0xFF, 0x05, 0x02, 0xFF]⟩
    let steps := Step.performAll bytes [.compressed, .number 4, .peek, .string,
      .advance 0xFFFFFFFFFFFFFFFF, .string] .start
    steps.map (·.stop.position) = [4, 4, 4, 5, 5, 6] ∧ (∀ s ∈ steps, s.Lawful bytes) ∧
      Decoder.compressed.run bytes .start = (.ok 0x2FF05, ⟨4, 0⟩) ∧
      (0x2FF05 < 0x20000000 ∧ ∃ size ∈ [1, 2, 4], ⟨4, 0⟩ = Cursor.start.advance size) := by
  intro bytes steps
  have hrun : Decoder.compressed.run bytes .start = (.ok 0x2FF05, ⟨4, 0⟩) :=
    operations_lawful.2.2 0x2FF05 (by decide) trivial
      (.start (Compressed.number 0x2FF05 ++ [0x02, 0xFF]))
  have hstops : steps.map (·.stop.position) = [4, 4, 4, 5, 5, 6] := by decide +kernel
  exact ⟨hstops, operations_lawful.1 bytes _, hrun, operations_lawful.2.1 _ _ _ _ hrun⟩

end MethodAtlas
