import Mathlib.Algebra.BigOperators.Group.List.Basic

/-!
# The layout of C structs

Every member is at the next multiple of its alignment, and the size of a struct is a multiple of
its own. `read_struct` says that an object is read back from where its layout puts it, and
`image_struct` that a packed struct is its members and nothing else. Numbers are little-endian.
-/

namespace CLayout

/-! ## Little-endian numbers -/

/-- The `w` bytes of a number. -/
def leBytes : Nat → Nat → List UInt8
  | 0, _ => []
  | w + 1, n => UInt8.ofNat n :: leBytes w (n / 256)

def ofLe : List UInt8 → Nat
  | [] => 0
  | b :: bs => b.toNat + 256 * ofLe bs

@[simp] theorem length_leBytes (w n : Nat) : (leBytes w n).length = w := by
  induction w generalizing n with
  | zero => rfl
  | succ w ih => rw [leBytes, List.length_cons, ih]

theorem ofLe_leBytes {w n : Nat} (h : n < 256 ^ w) : ofLe (leBytes w n) = n := by
  induction w generalizing n with
  | zero =>
    rw [Nat.pow_zero] at h
    exact (Nat.lt_one_iff.1 h).symm
  | succ w ih =>
    have hdiv : n / 256 < 256 ^ w := by
      rw [Nat.pow_succ] at h
      exact Nat.div_lt_of_lt_mul (by rwa [Nat.mul_comm])
    have hbyte : (UInt8.ofNat n).toNat = n % 256 := UInt8.toNat_ofNat'
    rw [leBytes, ofLe, ih hdiv, hbyte]
    exact Nat.mod_add_div n 256

/-! ## Slices -/

variable {α β : Type*}

def slice (xs : List α) (o n : Nat) : List α := (xs.drop o).take n

theorem slice_append {xs ys zs : List α} {o n : Nat} (ho : xs.length = o) (hn : ys.length = n) :
    slice (xs ++ (ys ++ zs)) o n = ys := by
  subst ho hn
  rw [slice, List.drop_left, List.take_left]

theorem slice_map (f : α → β) (xs : List α) (o n : Nat) :
    slice (xs.map f) o n = (slice xs o n).map f := by
  rw [slice, slice, List.map_take, List.map_drop]

theorem slice_slice {xs : List α} {o n i m : Nat} (h : i + m ≤ n) :
    slice (slice xs o n) i m = slice xs (o + i) m := by
  unfold slice
  rw [List.drop_take, List.take_take, List.drop_drop, Nat.min_eq_left (by omega)]

/-! ## Layouts -/

/-- The size and the alignment of a type. -/
structure Layout where
  size : Nat
  align : Nat
  deriving DecidableEq, Repr

def roundUp (n a : Nat) : Nat := n + (a - n % a) % a

theorem le_roundUp (n a : Nat) : n ≤ roundUp n a := Nat.le_add_right _ _

/-- The offsets of members that are placed from `o` on. -/
def offsetsFrom (o : Nat) : List Layout → List Nat
  | [] => []
  | l :: ls => roundUp o l.align :: offsetsFrom (roundUp o l.align + l.size) ls

def endFrom (o : Nat) : List Layout → Nat
  | [] => o
  | l :: ls => endFrom (roundUp o l.align + l.size) ls

namespace Layout

/-- An unsigned integer of `w` bytes, with its natural alignment. -/
def uint (w : Nat) : Layout := ⟨w, w⟩

def array (l : Layout) (n : Nat) : Layout := ⟨l.size * n, l.align⟩

/-- A struct is aligned as the strictest of its members. -/
def struct (ls : List Layout) : Layout :=
  let align := (ls.map Layout.align).foldr max 1
  ⟨roundUp (endFrom 0 ls) align, align⟩

end Layout

/-! ## Objects in memory -/

/-- An object of a type; `none` is a byte of padding, which holds nothing. -/
structure Obj (l : Layout) where
  image : List (Option UInt8)
  length_image : image.length = l.size

abbrev Member := Σ l : Layout, Obj l

/-- Members that are placed from `o` on. -/
def bodyFrom (o : Nat) : List Member → List (Option UInt8)
  | [] => []
  | m :: ms =>
    List.replicate (roundUp o m.1.align - o) none ++
      (m.2.image ++ bodyFrom (roundUp o m.1.align + m.1.size) ms)

theorem length_bodyFrom (ms : List Member) (o : Nat) :
    o + (bodyFrom o ms).length = endFrom o (ms.map Sigma.fst) := by
  induction ms generalizing o with
  | nil => rfl
  | cons m ms ih =>
    have hle := le_roundUp o m.1.align
    have hlen := m.2.length_image
    rw [List.map_cons, endFrom, ← ih, bodyFrom, List.length_append, List.length_append,
      List.length_replicate, hlen]
    omega

namespace Obj

variable {l : Layout}

def uint (w n : Nat) : Obj (.uint w) :=
  ⟨(leBytes w n).map some, by rw [List.length_map, length_leBytes]; rfl⟩

@[simp] theorem image_uint (w n : Nat) : (uint w n).image = (leBytes w n).map some := rfl

def array {n : Nat} (os : Vector (Obj l) n) : Obj (.array l n) where
  image := os.toList.flatMap Obj.image
  length_image := by
    rw [List.length_flatMap, List.map_congr_left (g := fun _ => l.size) fun o _ => o.length_image,
      List.map_const', List.sum_replicate, Vector.length_toList, Nat.nsmul_eq_mul, Nat.mul_comm]
    rfl

theorem image_array {n : Nat} (os : Vector (Obj l) n) :
    (array os).image = os.toList.flatMap Obj.image := rfl

/-- A struct, with the padding behind its last member. -/
def struct (ms : List Member) : Obj (.struct (ms.map Sigma.fst)) where
  image := bodyFrom 0 ms ++
    List.replicate ((Layout.struct (ms.map Sigma.fst)).size - (bodyFrom 0 ms).length) none
  length_image := by
    have hend := length_bodyFrom ms 0
    have hle : (bodyFrom 0 ms).length ≤ (Layout.struct (ms.map Sigma.fst)).size := by
      rw [Nat.zero_add] at hend
      rw [hend]
      exact le_roundUp _ _
    rw [List.length_append, List.length_replicate]
    omega

/-- The object as an array of bytes, if it has no padding. -/
def bytes (o : Obj l) : Option (List UInt8) := o.image.mapM id

theorem bytes_eq {o : Obj l} {bs : List UInt8} (h : o.image = bs.map some) :
    o.bytes = some bs := by
  rw [bytes, h]
  clear h
  induction bs with
  | nil => rfl
  | cons b bs ih => rw [List.map_cons, List.mapM_cons, ih]; rfl

end Obj

/-! ## Reading a struct -/

theorem read_bodyFrom (ms : List Member) {all p q : List (Option UInt8)} {o : Nat}
    (hall : all = p ++ (bodyFrom o ms ++ q)) (hp : p.length = o) :
    List.zipWith (fun o l => slice all o l.size) (offsetsFrom o (ms.map Sigma.fst))
      (ms.map Sigma.fst) = ms.map fun m => m.2.image := by
  induction ms generalizing p o with
  | nil => rfl
  | cons m ms ih =>
    let start := p ++ List.replicate (roundUp o m.1.align - o) none
    have hstart : start.length = roundUp o m.1.align := by
      have hle := le_roundUp o m.1.align
      rw [List.length_append, List.length_replicate, hp]
      omega
    have hsplit : all = start ++
        (m.2.image ++ (bodyFrom (roundUp o m.1.align + m.1.size) ms ++ q)) := by
      rw [hall, bodyFrom]
      simp only [start, List.append_assoc]
    refine congrArg₂ List.cons ?_ (ih (p := start ++ m.2.image) ?_ ?_)
    · rw [hsplit]
      exact slice_append hstart m.2.length_image
    · exact hsplit.trans (List.append_assoc ..).symm
    · rw [List.length_append, hstart, m.2.length_image]

/-- **What is placed by the layout is read back by it.** -/
theorem read_struct {ms : List Member} {ls : List Layout} {os : List Nat}
    (hls : ms.map Sigma.fst = ls) (hos : offsetsFrom 0 ls = os) :
    List.zipWith (fun o l => slice (Obj.struct ms).image o l.size) os ls =
      ms.map fun m => m.2.image := by
  subst hls hos
  exact read_bodyFrom ms (p := []) rfl rfl

/-- Whether members that are placed from `o` on need no padding between them. -/
def packedFrom (o : Nat) : List Layout → Bool
  | [] => true
  | l :: ls => roundUp o l.align = o && packedFrom (o + l.size) ls

def packed (ls : List Layout) : Bool :=
  packedFrom 0 ls && endFrom 0 ls = (Layout.struct ls).size

theorem bodyFrom_packed (ms : List Member) {o : Nat} (h : packedFrom o (ms.map Sigma.fst) = true) :
    bodyFrom o ms = ms.flatMap fun m => m.2.image := by
  induction ms generalizing o with
  | nil => rfl
  | cons m ms ih =>
    rw [List.map_cons, packedFrom, Bool.and_eq_true, decide_eq_true_eq] at h
    rw [bodyFrom, h.1, Nat.sub_self, ih h.2, List.flatMap_cons]
    rfl

/-- **A packed struct** is its members, one after another. -/
theorem image_struct {ms : List Member} (h : packed (ms.map Sigma.fst) = true) :
    (Obj.struct ms).image = ms.flatMap fun m => m.2.image := by
  rw [packed, Bool.and_eq_true, decide_eq_true_eq] at h
  have hend := length_bodyFrom ms 0
  rw [Nat.zero_add, h.2] at hend
  show bodyFrom 0 ms ++ List.replicate (_ - (bodyFrom 0 ms).length) none = _
  rw [hend, Nat.sub_self, bodyFrom_packed ms h.1]
  exact List.append_nil _

end CLayout
