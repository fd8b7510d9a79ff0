import Mathlib.Data.List.GetD
import Mathlib.Tactic.Ring
import Mathlib.Tactic.Linarith

/-!
# Fixed byte buffers

A block of `n` bytes of memory, read and written at byte offsets. Reads past the end give
`0` and writes past the end are dropped, so every operation is total; callers that care
about bounds state them.

A *word* is the 4-byte little-endian number at an offset. `word_mono` speaks about a word
of which only some bytes have arrived yet.
-/

/-- A block of `n` bytes. -/
def Buffer (n : ℕ) := Fin n → UInt8

namespace Buffer

variable {n : ℕ}

/-- The all-zero block. -/
def zero : Buffer n := fun _ => 0

/-- The byte at offset `i`, or `0` past the end. -/
def get (b : Buffer n) (i : ℕ) : UInt8 := if h : i < n then b ⟨i, h⟩ else 0

/-- Copy the bytes `bs` to offset `off`. -/
def write (b : Buffer n) (off : ℕ) (bs : List UInt8) : Buffer n := fun i =>
  if off ≤ i.val ∧ i.val < off + bs.length then bs.getD (i.val - off) 0 else b i

/-- The `len` bytes from offset `off`. -/
def slice (b : Buffer n) (off len : ℕ) : List UInt8 :=
  (List.range len).map fun k => b.get (off + k)

/-- The 4-byte little-endian number at offset `off`. -/
def word (b : Buffer n) (off : ℕ) : ℕ :=
  (b.get off).toNat + 256 * (b.get (off + 1)).toNat + 65536 * (b.get (off + 2)).toNat
    + 16777216 * (b.get (off + 3)).toNat

/-- The little-endian bytes of a 32-bit number. -/
def wordBytes (v : ℕ) : List UInt8 :=
  [UInt8.ofNat v, UInt8.ofNat (v / 256), UInt8.ofNat (v / 65536), UInt8.ofNat (v / 16777216)]

/-- Store a 32-bit number at offset `off`. -/
def setWord (b : Buffer n) (off v : ℕ) : Buffer n := b.write off (wordBytes v)

/-! ## Reading bytes -/

theorem get_of_lt (b : Buffer n) {i : ℕ} (h : i < n) : b.get i = b ⟨i, h⟩ := dif_pos h

theorem get_of_le (b : Buffer n) {i : ℕ} (h : n ≤ i) : b.get i = 0 := dif_neg (by omega)

@[simp] theorem get_zero (i : ℕ) : (zero : Buffer n).get i = 0 := by
  unfold get zero; split <;> rfl

theorem get_write (b : Buffer n) (off : ℕ) (bs : List UInt8) (i : ℕ) (hi : i < n) :
    (b.write off bs).get i =
      if off ≤ i ∧ i < off + bs.length then bs.getD (i - off) 0 else b.get i := by
  rw [get_of_lt _ hi, get_of_lt _ hi, write]

/-- A write leaves the bytes outside its range alone. -/
theorem get_write_of_outside (b : Buffer n) (off : ℕ) (bs : List UInt8) {i : ℕ}
    (h : i < off ∨ off + bs.length ≤ i) : (b.write off bs).get i = b.get i := by
  by_cases hi : i < n
  · rw [get_write b off bs i hi, if_neg (by omega)]
  · rw [get_of_le _ (by omega), get_of_le _ (by omega)]

/-- A write puts its bytes in its range. -/
theorem get_write_of_inside (b : Buffer n) (off : ℕ) (bs : List UInt8) {i : ℕ}
    (h : off ≤ i ∧ i < off + bs.length) (hi : i < n) :
    (b.write off bs).get i = bs.getD (i - off) 0 := by
  rw [get_write b off bs i hi, if_pos h]

@[simp] theorem write_nil (b : Buffer n) (off : ℕ) : b.write off [] = b := by
  funext i
  simp only [write, List.length_nil, add_zero]
  rw [if_neg (by omega)]

/-- Two writes side by side are one write. -/
theorem write_append (b : Buffer n) (off : ℕ) (xs ys : List UInt8) :
    (b.write off xs).write (off + xs.length) ys = b.write off (xs ++ ys) := by
  funext i
  simp only [write, List.length_append]
  by_cases hy : off + xs.length ≤ i.val ∧ i.val < off + xs.length + ys.length
  · rw [if_pos hy, if_pos (by omega), List.getD_append_right _ _ _ _ (by omega)]
    congr 1
    omega
  · rw [if_neg hy]
    by_cases hx : off ≤ i.val ∧ i.val < off + xs.length
    · rw [if_pos hx, if_pos (by omega), List.getD_append _ _ _ _ (by omega)]
    · rw [if_neg hx, if_neg (by omega)]

/-! ## Slices -/

@[simp] theorem length_slice (b : Buffer n) (off len : ℕ) : (b.slice off len).length = len := by
  simp [slice]

@[simp] theorem slice_zero_length (b : Buffer n) (off : ℕ) : b.slice off 0 = [] := rfl

theorem getElem_slice (b : Buffer n) (off len : ℕ) {k : ℕ} (h : k < (b.slice off len).length) :
    (b.slice off len)[k] = b.get (off + k) := by
  simp [slice]

theorem getD_slice (b : Buffer n) (off len : ℕ) {k : ℕ} (h : k < len) :
    (b.slice off len).getD k 0 = b.get (off + k) := by
  rw [List.getD_eq_getElem _ _ (by simpa using h), getElem_slice]

/-- A slice is its first part followed by the rest. -/
theorem slice_add (b : Buffer n) (off k l : ℕ) :
    b.slice off (k + l) = b.slice off k ++ b.slice (off + k) l := by
  simp only [slice, List.range_add, List.map_append, List.map_map]
  congr 2
  funext x
  simp [add_assoc]

theorem take_slice (b : Buffer n) (off len k : ℕ) (h : k ≤ len) :
    (b.slice off len).take k = b.slice off k := by
  obtain ⟨l, rfl⟩ := Nat.exists_eq_add_of_le h
  rw [slice_add, List.take_left' (by simp)]

theorem drop_slice (b : Buffer n) (off len k : ℕ) (h : k ≤ len) :
    (b.slice off len).drop k = b.slice (off + k) (len - k) := by
  obtain ⟨l, rfl⟩ := Nat.exists_eq_add_of_le h
  rw [slice_add, List.drop_left' (by simp)]
  congr 1
  omega

/-- Slices agree when the bytes under them do. -/
theorem slice_congr {m : ℕ} (a : Buffer n) (b : Buffer m) (off off' len : ℕ)
    (h : ∀ k, k < len → a.get (off + k) = b.get (off' + k)) :
    a.slice off len = b.slice off' len := by
  apply List.ext_getElem (by simp)
  intro k hk _
  rw [getElem_slice, getElem_slice]
  exact h k (by simpa using hk)

/-- Reading back what was written. -/
theorem slice_write_self (b : Buffer n) (off : ℕ) (bs : List UInt8) (h : off + bs.length ≤ n) :
    (b.write off bs).slice off bs.length = bs := by
  apply List.ext_getElem (by simp)
  intro k hk hk'
  rw [getElem_slice, get_write_of_inside _ _ _ (by omega) (by omega),
    Nat.add_sub_cancel_left, List.getD_eq_getElem _ _ hk']

/-- Copying a prefix of another block of the same size copies its bytes. -/
theorem get_write_slice (b p : Buffer n) (len : ℕ) {i : ℕ} (hi : i < n) :
    (b.write 0 (p.slice 0 len)).get i = if i < len then p.get i else b.get i := by
  rw [get_write _ _ _ _ hi]
  by_cases h : i < len
  · rw [if_pos (by simpa using h), if_pos h, Nat.sub_zero, getD_slice _ _ _ h, zero_add]
  · rw [if_neg (by simpa using h), if_neg h]

/-! ## Words -/

theorem word_lt (b : Buffer n) (off : ℕ) : b.word off < 4294967296 := by
  have h0 := (b.get off).toNat_lt
  have h1 := (b.get (off + 1)).toNat_lt
  have h2 := (b.get (off + 2)).toNat_lt
  have h3 := (b.get (off + 3)).toNat_lt
  unfold word
  omega

@[simp] theorem word_zero (off : ℕ) : (zero : Buffer n).word off = 0 := by
  simp [word]

theorem word_eq_zero (b : Buffer n) (off : ℕ) :
    b.word off = 0 ↔ ∀ k, k < 4 → b.get (off + k) = 0 := by
  have hz : ∀ x : UInt8, x.toNat = 0 ↔ x = 0 := fun x => UInt8.toNat_inj (b := 0)
  constructor
  · intro h k hk
    unfold word at h
    rw [← hz]
    obtain rfl | rfl | rfl | rfl : k = 0 ∨ k = 1 ∨ k = 2 ∨ k = 3 := by omega
    · rw [add_zero]
      omega
    all_goals omega
  · intro h
    have h0 := h 0 (by omega)
    rw [add_zero] at h0
    simp [word, h0, h 1 (by omega), h 2 (by omega), h 3 (by omega)]

@[simp] theorem length_wordBytes (v : ℕ) : (wordBytes v).length = 4 := rfl

/-- A word depends on its four bytes only. -/
theorem word_congr {m : ℕ} (a : Buffer n) (b : Buffer m) (off off' : ℕ)
    (h : ∀ k, k < 4 → a.get (off + k) = b.get (off' + k)) : a.word off = b.word off' := by
  have h0 := h 0 (by omega)
  simp only [add_zero] at h0
  simp only [word, h0, h 1 (by omega), h 2 (by omega), h 3 (by omega)]

theorem word_write_of_outside (b : Buffer n) (off : ℕ) (bs : List UInt8) {i : ℕ}
    (h : i + 4 ≤ off ∨ off + bs.length ≤ i) : (b.write off bs).word i = b.word i :=
  word_congr _ _ _ _ fun k _ => get_write_of_outside b off bs (by omega)

theorem word_setWord_self (b : Buffer n) (off v : ℕ) (hn : off + 4 ≤ n) (hv : v < 4294967296) :
    (b.setWord off v).word off = v := by
  have hget : ∀ k, k < 4 →
      (b.write off (wordBytes v)).get (off + k) = (wordBytes v).getD k 0 := by
    intro k hk
    rw [get_write_of_inside _ _ _ (by simp; omega) (by omega), Nat.add_sub_cancel_left]
  have h0 := hget 0 (by omega)
  simp only [add_zero] at h0
  simp only [setWord, word, h0, hget 1 (by omega), hget 2 (by omega), hget 3 (by omega)]
  simp only [wordBytes, List.getD_cons_zero, List.getD_cons_succ, UInt8.toNat_ofNat']
  omega

theorem word_setWord_of_outside (b : Buffer n) (off v : ℕ) {i : ℕ}
    (h : i + 4 ≤ off ∨ off + 4 ≤ i) : (b.setWord off v).word i = b.word i :=
  word_write_of_outside b off _ (by simpa using h)

/-- A word grows with its bytes: a block whose bytes are those of `b` or zero has the
smaller word. -/
theorem word_mono (a b : Buffer n) (off : ℕ)
    (h : ∀ k, k < 4 → a.get (off + k) = b.get (off + k) ∨ a.get (off + k) = 0) :
    a.word off ≤ b.word off := by
  have hle : ∀ k, k < 4 → (a.get (off + k)).toNat ≤ (b.get (off + k)).toNat := by
    intro k hk
    rcases h k hk with e | e <;> rw [e]
    simp
  have h0 := hle 0 (by omega)
  have h1 := hle 1 (by omega)
  have h2 := hle 2 (by omega)
  have h3 := hle 3 (by omega)
  simp only [add_zero] at h0
  unfold word
  omega

end Buffer
