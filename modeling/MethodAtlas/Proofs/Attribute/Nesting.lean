import MethodAtlas.Proofs.Attribute.RoundTrip
import MethodAtlas.Proofs.Bytes.Consumption

/-!
# How deep boxed arguments nest

The levels of nested values are counted where values are read. The tag of a boxed value can describe
vectors of vectors of any depth, and is read without counting: only if the value goes down as deep
as the levels reach, each vector on the way being opened, is the argument refused
(`Attribute.hitsLimit_argument_object_iff`). A box whose vector is missing or empty is read, however
deep its tag goes.
-/
namespace MethodAtlas

/-- How many vectors and boxes a tag describes, one inside the other. -/
def ArgumentTag.nesting : ArgumentTag → Nat
  | scalar _ => 0
  | enum _ => 0
  | object => 1
  | vector element => element.nesting + 1

/-- How many vectors a type consists of, one inside the other. -/
def ArgumentType.vectors : ArgumentType → Nat
  | vector element => element.vectors + 1
  | _ => 0

theorem ArgumentTag.nesting_le (tag : ArgumentTag) : tag.nesting ≤ tag.type.vectors + 1 := by
  induction tag with
  | vector element ih => exact Nat.succ_le_succ ih
  | _ => simp [nesting]

theorem StoredArgument.levelsOfAll_le {es : List StoredArgument} {levels : Nat}
    (h : ∀ e ∈ es, e.levels ≤ levels) : levelsOfAll es ≤ levels := by
  induction es with
  | nil => exact Nat.zero_le _
  | cons e es ih =>
    obtain ⟨he, hes⟩ := List.forall_mem_cons.mp h
    exact Nat.max_le.mpr ⟨he, ih hes⟩

/-- A number that is read stands at the cursor. -/
theorem Cursor.Ahead.of_run_number {c c' : Cursor} {bytes : ByteArray} {text : List UInt8}
    {width n : Nat} (hahead : c.Ahead bytes text)
    (h : (Decoder.number width).run bytes c = (.ok n, c')) :
    ∃ more, text = Bytes.toLE width n ++ more ∧ c'.Ahead bytes more ∧ n < 1 <<< (8 * width) := by
  rw [Decoder.run_number] at h
  split at h
  · next hfits =>
    obtain ⟨form, more, rfl, rfl⟩ := hahead.exists_append hfits
    rw [hahead.extract_eq] at h
    cases h
    exact ⟨more, by rw [Bytes.toLE_ofLE], hahead.advance, Bytes.ofLE_lt form⟩
  · cases h

/-- A type with a vector is a vector. -/
theorem ArgumentType.exists_eq_vector {t : ArgumentType} {levels : Nat}
    (h : levels + 1 ≤ t.vectors) : ∃ element, t = .vector element ∧ levels ≤ element.vectors := by
  cases t with
  | vector element => exact ⟨element, rfl, Nat.le_of_succ_le_succ h⟩
  | _ => exact absurd h (Nat.not_succ_le_zero levels)

namespace Attribute
open Decoder

/-- Four bytes hold no number above the mark of no vector. -/
theorem lt_noVector {count : Nat} (hlt : count < 1 <<< (8 * 4)) (hvector : count ≠ noVector) :
    count < noVector := by
  rw [noVector] at hvector ⊢
  omega

/-- A value of a type that can be read within so many levels. -/
structure Fits (t : ArgumentType) (levels : Nat) (v : StoredArgument) : Prop where
  hasType : v.HasType t
  storable : v.Storable
  levels_le : v.levels ≤ levels

/-- Bytes that open vectors, one inside the other, so many levels down from a value of a type. In
front of the element that is opened stand others that can be read. -/
inductive Descends : ArgumentType → (levels : Nat) → List UInt8 → Prop
  | reached (t : ArgumentType) (rest : List UInt8) : Descends t 0 rest
  | opened {element : ArgumentType} {levels count : Nat} {es : List StoredArgument}
    {rest : List UInt8} (hes : ∀ e ∈ es, Fits element levels e) (hcount : es.length < count)
    (hvector : count < noVector) (hrest : Descends element levels rest) :
    Descends (.vector element) (levels + 1)
      (Bytes.toLE 4 count ++ (StoredArgument.encodeAll es ++ rest))

/-- Reading fails because values nest too deep. -/
def HitsLimit {α : Type} (d : Decoder α) (bytes : ByteArray) (c : Cursor) : Prop :=
  ∃ c', d.run bytes c = (.error (.recursionLimit depthLimit), c')

section
variable {α β : Type} {d : Decoder α} {bytes : ByteArray} {c c' : Cursor} {text : List UInt8}

theorem not_hitsLimit_of_ok {a : α} (h : d.run bytes c = (.ok a, c')) : ¬HitsLimit d bytes c := by
  rintro ⟨_, hlimit⟩
  rw [h] at hlimit
  cases hlimit

theorem hitsLimit_nested_iff :
    HitsLimit (nested d) bytes c ↔ HitsLimit d bytes ⟨c.position, c.depth + 1⟩ := by
  rcases h : d.run bytes ⟨c.position, c.depth + 1⟩ with ⟨e | a, c'⟩
  · have hrun : (nested d).run bytes c = (.error e, c') := by
      rw [run] at h
      simp only [run, nested, h]
    rw [HitsLimit, HitsLimit, hrun, h]
  · have hrun : (nested d).run bytes c = (.ok a, ⟨c'.position, c'.depth - 1⟩) := by
      rw [run] at h
      simp only [run, nested, h]
    exact iff_of_false (not_hitsLimit_of_ok hrun) (not_hitsLimit_of_ok h)

/-- Behind a value that is read, what follows decides. -/
theorem hitsLimit_bind_iff {f : α → Decoder β} {a : α} (h : d.run bytes c = (.ok a, c')) :
    HitsLimit (d >>= f) bytes c ↔ HitsLimit (f a) bytes c' := by
  rw [HitsLimit, HitsLimit, run_bind, h]

theorem hitsLimit_map_iff {g : α → β} :
    HitsLimit (d >>= fun a => pure (g a)) bytes c ↔ HitsLimit d bytes c := by
  rcases h : d.run bytes c with ⟨e | a, c'⟩
  · rw [HitsLimit, HitsLimit, run_bind, h]
    simp
  · rw [hitsLimit_bind_iff h]
    exact iff_of_false (not_hitsLimit_of_ok rfl) (not_hitsLimit_of_ok h)

/-- A list of values that is read up to its end or up to the first failure consists of values that
are read. -/
theorem run_collect_outcome {P : StoredArgument → Prop} {d : Decoder Argument}
    (hread : ∀ ⦃c c' text a⦄, Cursor.Ahead c bytes text → d.run bytes c = (.ok a, c') →
      ∃ v more, P v ∧ text = v.encode ++ more ∧ c'.Ahead bytes more)
    (n : Nat) (done : Array Argument) (hahead : c.Ahead bytes text) :
    ∃ es more mid, (∀ e ∈ es, P e) ∧ text = StoredArgument.encodeAll es ++ more ∧
      mid.Ahead bytes more ∧
      ((es.length = n ∧ ∃ all, (collect d n done).run bytes c = (.ok all, mid)) ∨
        (es.length < n ∧ ∃ e c', d.run bytes mid = (.error e, c') ∧
          (collect d n done).run bytes c = (.error e, c'))) := by
  induction n generalizing c text done with
  | zero => exact ⟨[], text, c, nofun, rfl, hahead, .inl ⟨rfl, done, rfl⟩⟩
  | succ n ih =>
    rcases hrun : d.run bytes c with ⟨e | a, c'⟩
    · refine ⟨[], text, c, nofun, rfl, hahead, .inr ⟨Nat.succ_pos n, e, c', hrun, ?_⟩⟩
      rw [collect, run_bind, hrun]
    · obtain ⟨v, more, hv, rfl, hmore⟩ := hread hahead hrun
      obtain ⟨es, last, mid, hes, rfl, hmid, houtcome⟩ := ih (done.push a) hmore
      have hcollect : (collect d (n + 1) done).run bytes c =
          (collect d n (done.push a)).run bytes c' := by
        rw [collect, run_bind, hrun]
      refine ⟨v :: es, last, mid, List.forall_mem_cons.mpr ⟨hv, hes⟩, ?_, hmid, ?_⟩
      · rw [StoredArgument.encodeAll, List.append_assoc]
      · rw [hcollect, List.length_cons]
        rcases houtcome with ⟨hlength, hall⟩ | ⟨hlength, hfail⟩
        · exact .inl ⟨congrArg (· + 1) hlength, hall⟩
        · exact .inr ⟨Nat.succ_lt_succ hlength, hfail⟩

/-- Reading a list fails where one of its values goes too deep, behind others that are read. -/
theorem hitsLimit_collect {d : Decoder Argument} {es : List StoredArgument} {n : Nat}
    (hes : ∀ e ∈ es, Reads d e.encode e.erase) (hn : es.length < n) (done : Array Argument)
    (hahead : c.Ahead bytes (StoredArgument.encodeAll es ++ text))
    (hlimit : ∀ ⦃mid⦄, Cursor.Ahead mid bytes text → HitsLimit d bytes mid) :
    HitsLimit (collect d n done) bytes c := by
  induction es generalizing c n done with
  | nil =>
    obtain ⟨n, rfl⟩ := Nat.exists_eq_add_of_lt hn
    obtain ⟨c', h⟩ := hlimit hahead
    rw [HitsLimit, collect, run_bind, h]
    exact ⟨c', rfl⟩
  | cons e es ih =>
    obtain ⟨he, hes⟩ := List.forall_mem_cons.mp hes
    obtain ⟨n, rfl⟩ : ∃ m, n = m + 1 := ⟨n - 1, by omega⟩
    rw [StoredArgument.encodeAll, List.append_assoc] at hahead
    rw [collect, hitsLimit_bind_iff (he trivial hahead)]
    exact ih hes (Nat.lt_of_succ_lt_succ hn) _ hahead.advance

theorem hitsLimit_of_no_levels (t : ArgumentType) : HitsLimit (argumentWithin 0 t) bytes c :=
  ⟨_, rfl⟩

/-- A value that goes down as deep as the levels reach is refused. -/
theorem Descends.hitsLimit {t : ArgumentType} {levels : Nat} (h : Descends t levels text)
    (hahead : c.Ahead bytes text) : HitsLimit (argumentWithin levels t) bytes c := by
  induction h generalizing c with
  | reached t rest => exact hitsLimit_of_no_levels t
  | @opened element levels count es rest hes hcount hvector _ ih =>
    have hlt : count < 1 <<< (8 * 4) := Nat.lt_trans hvector (by decide)
    have hinner := hahead.deeper
    have hreads : ∀ e ∈ es, Reads (argumentWithin levels element) e.encode e.erase := fun e he =>
      .argumentWithin (hes e he).hasType (hes e he).storable (hes e he).levels_le
    rw [argumentWithin, hitsLimit_nested_iff, argumentBody,
      hitsLimit_bind_iff (Reads.toLE hlt trivial hinner), if_neg (Nat.ne_of_lt hvector),
      hitsLimit_map_iff, many, hitsLimit_map_iff]
    exact hitsLimit_collect hreads hcount _ hinner.advance fun mid hmid => ih hmid

/-- Only vectors that are missing, or whose elements are, can be read within fewer levels than their
types have. -/
theorem exists_fits_of_run {t : ArgumentType} {levels : Nat} (hdeep : levels ≤ t.vectors)
    (hahead : c.Ahead bytes text) {a : Argument}
    (h : (argumentWithin levels t).run bytes c = (.ok a, c')) :
    ∃ v more, Fits t levels v ∧ text = v.encode ++ more ∧ c'.Ahead bytes more := by
  induction levels generalizing t c c' text a with
  | zero => exact absurd (hitsLimit_of_no_levels t) (not_hitsLimit_of_ok h)
  | succ levels ih =>
    obtain ⟨element, rfl, hless⟩ := ArgumentType.exists_eq_vector hdeep
    obtain ⟨last, hbody, hlast⟩ := exists_run_of_nested h
    obtain ⟨count, mid, hcount, hrest⟩ := run_bind_eq_ok hbody
    have hinner := hahead.deeper
    obtain ⟨after, rfl, hafter, hlt⟩ := hinner.of_run_number hcount
    split at hrest
    · next hnone =>
      cases hrest
      exact ⟨.noVector, after, ⟨.noVector element, .noVector, Nat.succ_pos _⟩, by rw [hnone]; rfl,
        hafter.of_position hlast.symm⟩
    · next hvector =>
      obtain ⟨as, end', hmany, hpure⟩ := run_bind_eq_ok hrest
      cases hpure
      obtain ⟨all, _, hall, hlist⟩ := run_bind_eq_ok hmany
      cases hlist
      obtain ⟨es, more, final, hes, rfl, hfinal, houtcome⟩ :=
        run_collect_outcome (P := Fits element levels)
          (fun _ _ _ _ hahead hrun => ih hless hahead hrun) count #[] hafter
      rcases houtcome with ⟨hlength, all', hall'⟩ | ⟨-, e, c'', -, hfail⟩
      · obtain rfl : final = last := congrArg Prod.snd (hall'.symm.trans hall)
        have hstorable : es.length < noVector := hlength ▸ lt_noVector hlt hvector
        refine ⟨.vector es, more, ⟨.vector fun e he => (hes e he).hasType,
          .vector hstorable fun e he => (hes e he).storable, ?_⟩, ?_, hfinal.of_position hlast.symm⟩
        · exact Nat.succ_le_succ (StoredArgument.levelsOfAll_le fun e he => (hes e he).levels_le)
        · rw [StoredArgument.encode, hlength, List.append_assoc]
      · rw [hfail] at hall
        cases hall

/-- A value of a type with more vectors than there are levels left is refused exactly if it goes
down as deep as the levels reach. -/
theorem hitsLimit_argumentWithin_iff {t : ArgumentType} {levels : Nat} (hdeep : levels ≤ t.vectors)
    (hahead : c.Ahead bytes text) :
    HitsLimit (argumentWithin levels t) bytes c ↔ Descends t levels text := by
  refine ⟨fun hlimit => ?_, fun h => h.hitsLimit hahead⟩
  induction levels generalizing t c text with
  | zero => exact .reached t text
  | succ levels ih =>
    obtain ⟨element, rfl, hless⟩ := ArgumentType.exists_eq_vector hdeep
    have hinner := hahead.deeper
    rw [argumentWithin, hitsLimit_nested_iff, argumentBody] at hlimit
    rcases hcount : (number 4).run bytes ⟨c.position, c.depth + 1⟩ with ⟨e | count, mid⟩
    · obtain ⟨c', hlimit⟩ := hlimit
      rw [run_bind, hcount] at hlimit
      rw [run_number] at hcount
      split at hcount <;> cases hcount
      cases hlimit
    · rw [hitsLimit_bind_iff hcount] at hlimit
      obtain ⟨after, rfl, hafter, hlt⟩ := hinner.of_run_number hcount
      split at hlimit
      · exact absurd hlimit (not_hitsLimit_of_ok rfl)
      · next hvector =>
        rw [hitsLimit_map_iff, many, hitsLimit_map_iff] at hlimit
        obtain ⟨es, more, mid', hes, rfl, hmid', houtcome⟩ :=
          run_collect_outcome (P := Fits element levels)
            (fun _ _ _ _ hahead hrun => exists_fits_of_run hless hahead hrun) count #[] hafter
        rcases houtcome with ⟨-, all, hall⟩ | ⟨hlength, e, c'', hfail, hcollect⟩
        · exact absurd hlimit (not_hitsLimit_of_ok hall)
        · have hmore : HitsLimit (argumentWithin levels element) bytes mid' := by
            obtain ⟨c₃, hlimit⟩ := hlimit
            rw [hcollect] at hlimit
            cases hlimit
            exact ⟨_, hfail⟩
          exact .opened hes hlength (lt_noVector hlt hvector) (ih hless hmid' hmore)

/-- A boxed value is read behind its tag, one level deeper. -/
theorem hitsLimit_object_iff {tag : ArgumentTag} (htag : tag.Storable)
    (hahead : c.Ahead bytes (tag.encode ++ text)) (levels : Nat) :
    ∃ c', Cursor.Ahead c' bytes text ∧
      (HitsLimit (argumentWithin (levels + 1) .object) bytes c ↔
        HitsLimit (argumentWithin levels tag.type) bytes c') := by
  obtain ⟨code, more, hencode, hread⟩ := Reads.taggedType htag
  rw [hencode] at hahead
  have hinner := hahead.deeper
  have hbehind : (Cursor.mk (c.position + 1) (c.depth + 1)).Ahead bytes (more ++ text) :=
    @Cursor.Ahead.advance _ _ [code] _ hinner
  have hleft : more.length ≤ bytes.size - (c.position + 1) := by
    have hsize : bytes.size = c.position + 1 + (more ++ text).length := hbehind.size_eq
    rw [List.length_append] at hsize
    omega
  refine ⟨_, hbehind.advance, ?_⟩
  have hcode : byte.run bytes ⟨c.position, c.depth + 1⟩ =
      (.ok code, ⟨c.position + 1, c.depth + 1⟩) := Reads.byte code trivial hinner
  rw [argumentWithin, hitsLimit_nested_iff, argumentBody, hitsLimit_bind_iff hcode]
  have hleftRun : left.run bytes ⟨c.position + 1, c.depth + 1⟩ =
    (.ok (bytes.size - (c.position + 1)), ⟨c.position + 1, c.depth + 1⟩) := rfl
  exact (hitsLimit_bind_iff hleftRun).trans (hitsLimit_bind_iff (hread _ hleft trivial hbehind))

/-- Boxes in boxes take a level each. -/
theorem hitsLimit_boxes_iff {boxes : Nat}
    (hahead : c.Ahead bytes (List.replicate boxes TagForm.object.code ++ text)) (levels : Nat) :
    ∃ c', Cursor.Ahead c' bytes text ∧
      (HitsLimit (argumentWithin levels .object) bytes c ↔
        HitsLimit (argumentWithin (levels - boxes) .object) bytes c') := by
  induction boxes generalizing c levels with
  | zero => exact ⟨c, hahead, Iff.rfl⟩
  | succ boxes ih =>
    cases levels with
    | zero =>
      rw [Nat.zero_sub]
      exact ⟨_, hahead.advance,
        iff_of_true (hitsLimit_of_no_levels _) (hitsLimit_of_no_levels _)⟩
    | succ levels =>
      obtain ⟨mid, hmid, hbox⟩ := @hitsLimit_object_iff _ _ _ .object trivial hahead levels
      obtain ⟨c', hc', hboxes⟩ := ih hmid levels
      rw [Nat.succ_sub_succ]
      exact ⟨c', hc', hbox.trans hboxes⟩

/-- **A boxed argument whose tags describe more nested boxes and vectors than there are levels** is
refused for its depth exactly if its value goes down as deep as the levels reach: at once, if the
boxes alone do, else if it opens so many vectors one inside the other. -/
theorem hitsLimit_argument_object_iff {boxes : Nat} {tag : ArgumentTag} (htag : tag.Storable)
    (hdeep : depthLimit < 1 + boxes + tag.nesting)
    (hahead : c.Ahead bytes
      (List.replicate boxes TagForm.object.code ++ (tag.encode ++ text))) :
    HitsLimit (argument .object) bytes c ↔ Descends tag.type (levelsAt c - (boxes + 1)) text := by
  have hargument : HitsLimit (argument .object) bytes c ↔
      HitsLimit (argumentWithin (levelsAt c) .object) bytes c := Iff.rfl
  obtain ⟨mid, hmid, hboxes⟩ := hitsLimit_boxes_iff hahead (levelsAt c)
  rw [hargument, hboxes, Nat.sub_add_eq]
  cases hlevels : levelsAt c - boxes with
  | zero => exact iff_of_true (hitsLimit_of_no_levels _) (.reached _ _)
  | succ levels =>
    obtain ⟨c', hc', hbox⟩ := hitsLimit_object_iff htag hmid levels
    have hvectors : levels ≤ tag.type.vectors := by
      have hle := tag.nesting_le
      rw [levelsAt] at hlevels
      omega
    rw [hbox, Nat.add_sub_cancel]
    exact hitsLimit_argumentWithin_iff hvectors hc'

end

/-- The tag of vectors of vectors of numbers, so many of them one inside the other. -/
def deepTag : (vectors : Nat) → ArgumentTag
  | 0 => .scalar .i4
  | n + 1 => .vector (deepTag n)

theorem storable_deepTag (n : Nat) : (deepTag n).Storable := by
  induction n with
  | zero => trivial
  | succ n ih => exact ih

/-- The element counts of vectors with one element each, one inside the other. -/
def singletons (vectors : Nat) : List UInt8 := (List.replicate vectors (Bytes.toLE 4 1)).flatten

theorem descends_singletons (n levels : Nat) :
    Descends (deepTag (n + levels)).type levels (singletons levels) := by
  induction levels with
  | zero => exact .reached _ _
  | succ levels ih => exact @Descends.opened _ _ 1 [] _ nofun Nat.one_pos (by decide) ih

/-- Three boxes around fifteen vectors, thirteen of which are opened. -/
theorem hitsLimit_argument_object_iff_sample :
    (deepTag 15).Storable ∧ depthLimit < 1 + 2 + (deepTag 15).nesting ∧
    Descends (deepTag 15).type 13 (singletons 13) ∧
    HitsLimit (argument .object)
      ⟨(List.replicate 2 TagForm.object.code ++ ((deepTag 15).encode ++ singletons 13)).toArray⟩
      .start :=
  ⟨storable_deepTag 15, by decide, descends_singletons 2 13,
    (hitsLimit_argument_object_iff (storable_deepTag 15) (by decide) (.start _)).mpr
      (descends_singletons 2 13)⟩

/-- A box without a vector is read, whatever its tag says of the elements. -/
theorem fixedArguments_box_without_vector {tag : ArgumentTag} (htag : tag.Storable) :
    fixedArguments ⟨(Bytes.toLE 2 prologMark ++
        ((ArgumentTag.vector tag).encode ++ Bytes.toLE 4 noVector)).toArray⟩ [.object] =
      .ok [.vector none] := by
  have htypes : List.Forall₂ StoredArgument.HasType [.boxed (.vector tag) .noVector] [.object] :=
    .cons (.boxed (.noVector tag.type)) .nil
  have hvalues : ∀ v ∈ [StoredArgument.boxed (.vector tag) .noVector], v.Storable :=
    List.forall_mem_singleton.mpr (.boxed htag .noVector)
  have hlevels : StoredArgument.levelsOfAll [.boxed (.vector tag) .noVector] ≤ depthLimit :=
    (by decide : 2 ≤ depthLimit)
  have hbytes : Bytes.toLE 2 prologMark ++
      ((ArgumentTag.vector tag).encode ++ Bytes.toLE 4 noVector) =
        encode [.boxed (.vector tag) .noVector] ++ [] := by
    simp [encode, StoredArgument.encodeAll, StoredArgument.encode]
  exact fixedArguments_eq htypes hvalues hlevels hbytes

/-- Tags that nest deeper than the limit are read in front of a vector that is missing. -/
theorem fixedArguments_deep_box : depthLimit < 1 + (deepTag 17).nesting ∧
    fixedArguments
      ⟨(Bytes.toLE 2 prologMark ++ ((deepTag 17).encode ++ Bytes.toLE 4 noVector)).toArray⟩
      [.object] = .ok [.vector none] :=
  ⟨by decide, fixedArguments_box_without_vector (storable_deepTag 16)⟩

end Attribute
end MethodAtlas
