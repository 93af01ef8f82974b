/-
# Little-endian words, sequential decoders and their round trips

Reusable infrastructure for binary formats.  An encoding is the list of writes
an encoder performs, one chunk of bytes a write; its bytes are the flattened
list.  A decoder consumes a prefix of its input or fails with an error.

* `Decodes d bs a` : on every input that starts with `bs`, the decoder `d`
  returns `a` and leaves exactly what follows `bs`;
* `Refuses d bs` : on every input that starts with `bs`, the decoder fails.

Both compose along the bind of decoders, so that a round trip of a record is
assembled from the round trips of its fields.
-/
import Mathlib

namespace ByteCodec

/-- The content of a file, a frame or a buffer. -/
abbrev Bytes := List UInt8

/-! ## Little-endian words -/

/-- The `n` low bytes of `x`, least significant first. -/
def leBytes : ℕ → ℕ → Bytes
  | 0, _ => []
  | n + 1, x => UInt8.ofNat x :: leBytes n (x / 256)

/-- The value of a byte string read least significant byte first. -/
def leValue : Bytes → ℕ
  | [] => 0
  | b :: bs => b.toNat + 256 * leValue bs

@[simp] theorem length_leBytes (n x : ℕ) : (leBytes n x).length = n := by
  induction n generalizing x with
  | zero => rfl
  | succ n ih => rw [leBytes, List.length_cons, ih]

theorem leValue_lt (bs : Bytes) : leValue bs < 256 ^ bs.length := by
  induction bs with
  | nil => simp [leValue]
  | cons b bs ih =>
    have hb := b.toNat_lt
    rw [leValue, List.length_cons, pow_succ]
    omega

/-- Reading back the `n` low bytes of `x` gives `x` modulo `256 ^ n`. -/
theorem leValue_leBytes (n x : ℕ) : leValue (leBytes n x) = x % 256 ^ n := by
  induction n generalizing x with
  | zero => simp [leBytes, leValue, Nat.mod_one]
  | succ n ih =>
    have hlow : (UInt8.ofNat x).toNat = x % 256 := UInt8.toNat_ofNat'
    rw [leBytes, leValue, ih, hlow, pow_succ', Nat.mod_mul]

/-- Every byte string is the little-endian form of its value. -/
theorem leBytes_leValue (bs : Bytes) : leBytes bs.length (leValue bs) = bs := by
  induction bs with
  | nil => rfl
  | cons b bs ih =>
    have hb := b.toNat_lt
    rw [List.length_cons, leBytes, leValue]
    congr 1
    · apply UInt8.toNat_inj.mp
      rw [UInt8.toNat_ofNat']
      omega
    · rw [show (b.toNat + 256 * leValue bs) / 256 = leValue bs from by omega, ih]

/-- The two bytes of a 16-bit word. -/
def le16 (v : UInt16) : Bytes := leBytes 2 v.toNat

/-- The four bytes of a 32-bit word. -/
def le32 (v : UInt32) : Bytes := leBytes 4 v.toNat

/-- The eight bytes of a 64-bit word. -/
def le64 (v : UInt64) : Bytes := leBytes 8 v.toNat

/-- The single byte of a flag. -/
def leBool (b : Bool) : Bytes := [if b then 1 else 0]

@[simp] theorem length_le16 (v : UInt16) : (le16 v).length = 2 := length_leBytes _ _

@[simp] theorem length_le32 (v : UInt32) : (le32 v).length = 4 := length_leBytes _ _

@[simp] theorem length_le64 (v : UInt64) : (le64 v).length = 8 := length_leBytes _ _

@[simp] theorem length_leBool (b : Bool) : (leBool b).length = 1 := rfl

theorem ofNat_leValue_le16 (v : UInt16) : UInt16.ofNat (leValue (le16 v)) = v := by
  have hv := v.toNat_lt
  rw [le16, leValue_leBytes, Nat.mod_eq_of_lt (by omega), UInt16.ofNat_toNat]

theorem ofNat_leValue_le32 (v : UInt32) : UInt32.ofNat (leValue (le32 v)) = v := by
  have hv := v.toNat_lt
  rw [le32, leValue_leBytes, Nat.mod_eq_of_lt (by omega), UInt32.ofNat_toNat]

theorem ofNat_leValue_le64 (v : UInt64) : UInt64.ofNat (leValue (le64 v)) = v := by
  have hv := v.toNat_lt
  rw [le64, leValue_leBytes, Nat.mod_eq_of_lt (by omega), UInt64.ofNat_toNat]

variable {bs : Bytes}

/-- Two bytes are the encoding of the word they spell. -/
theorem le16_ofNat_leValue (h : bs.length = 2) : le16 (UInt16.ofNat (leValue bs)) = bs := by
  have hlt : leValue bs < 2 ^ 16 := lt_of_lt_of_eq (leValue_lt bs) (by rw [h]; rfl)
  unfold le16
  rw [UInt16.toNat_ofNat', Nat.mod_eq_of_lt hlt, ← h, leBytes_leValue]

/-- Four bytes are the encoding of the word they spell. -/
theorem le32_ofNat_leValue (h : bs.length = 4) : le32 (UInt32.ofNat (leValue bs)) = bs := by
  have hlt : leValue bs < 2 ^ 32 := lt_of_lt_of_eq (leValue_lt bs) (by rw [h]; rfl)
  unfold le32
  rw [UInt32.toNat_ofNat', Nat.mod_eq_of_lt hlt, ← h, leBytes_leValue]

/-- Eight bytes are the encoding of the word they spell. -/
theorem le64_ofNat_leValue (h : bs.length = 8) : le64 (UInt64.ofNat (leValue bs)) = bs := by
  have hlt : leValue bs < 2 ^ 64 := lt_of_lt_of_eq (leValue_lt bs) (by rw [h]; rfl)
  unfold le64
  rw [UInt64.toNat_ofNat', Nat.mod_eq_of_lt hlt, ← h, leBytes_leValue]

/-- At least two bytes start with a word. -/
theorem exists_le16_append (h : 2 ≤ bs.length) : ∃ v, le16 v ++ bs.drop 2 = bs := by
  refine ⟨UInt16.ofNat (leValue (bs.take 2)), ?_⟩
  rw [le16_ofNat_leValue (by simp [h]), List.take_append_drop]

/-- At least four bytes start with a word. -/
theorem exists_le32_append (h : 4 ≤ bs.length) : ∃ v, le32 v ++ bs.drop 4 = bs := by
  refine ⟨UInt32.ofNat (leValue (bs.take 4)), ?_⟩
  rw [le32_ofNat_leValue (by simp [h]), List.take_append_drop]

/-- At least eight bytes start with a word. -/
theorem exists_le64_append (h : 8 ≤ bs.length) : ∃ v, le64 v ++ bs.drop 8 = bs := by
  refine ⟨UInt64.ofNat (leValue (bs.take 8)), ?_⟩
  rw [le64_ofNat_leValue (by simp [h]), List.take_append_drop]

/-! ## Decoders -/

/-- A sequential reader: it consumes a prefix of the bytes or fails. -/
abbrev Decoder (ε : Type) := StateT Bytes (Except ε)

variable {ε α β : Type} {a : α} {e : ε} {as : List α}

namespace Decoder

/-- Fail with the given error. -/
def refuse (e : ε) : Decoder ε α := fun _ => .error e

/-- The next `n` bytes, or the given error when fewer are left. -/
def take (n : ℕ) (e : ε) : Decoder ε Bytes := fun bs =>
  if bs.length < n then .error e else .ok (bs.take n, bs.drop n)

/-- One byte. -/
def u8 (e : ε) : Decoder ε UInt8 := fun bs =>
  match bs with
  | [] => .error e
  | b :: rest => .ok (b, rest)

/-- A 16-bit word. -/
def u16 (e : ε) : Decoder ε UInt16 := (fun bs => UInt16.ofNat (leValue bs)) <$> take 2 e

/-- A 32-bit word. -/
def u32 (e : ε) : Decoder ε UInt32 := (fun bs => UInt32.ofNat (leValue bs)) <$> take 4 e

/-- A 64-bit word. -/
def u64 (e : ε) : Decoder ε UInt64 := (fun bs => UInt64.ofNat (leValue bs)) <$> take 8 e

/-- A flag: any byte other than `0` and `1` is refused. -/
def bool (e : ε) : Decoder ε Bool := do
  let raw ← u8 e
  if raw > 1 then refuse e else pure (raw == 1)

/-- A byte string behind its 32-bit length, which may not exceed the bound. -/
def string (bound : ℕ) (e : ε) : Decoder ε Bytes := do
  let n ← u32 e
  if n.toNat > bound then refuse e else take n.toNat e

/-- Run a decoder `n` times and collect the results. -/
def times (d : Decoder ε α) : ℕ → Decoder ε (List α)
  | 0 => pure []
  | n + 1 => do
    let a ← d
    let as ← times d n
    pure (a :: as)

end Decoder

/-! ## Round trips -/

/-- On every input that starts with `bs`, the decoder returns `a` and leaves the rest. -/
def Decodes (d : Decoder ε α) (bs : Bytes) (a : α) : Prop :=
  ∀ rest, d (bs ++ rest) = .ok (a, rest)

/-- On every input that starts with `bs`, the decoder fails. -/
def Refuses (d : Decoder ε α) (bs : Bytes) : Prop :=
  ∀ rest, ∃ e, d (bs ++ rest) = .error e

variable {d : Decoder ε α} {f : α → Decoder ε β}

/-- The bind of decoders, once the first one has returned. -/
theorem bind_of_ok {rest : Bytes} (h : d bs = .ok (a, rest)) : (d >>= f) bs = f a rest := by
  show (StateT.bind d f) bs = _
  simp only [StateT.bind, h, bind, Except.bind]

/-- The bind of decoders, once the first one has failed. -/
theorem bind_of_error (h : d bs = .error e) : (d >>= f) bs = .error e := by
  show (StateT.bind d f) bs = _
  simp only [StateT.bind, h, bind, Except.bind]

variable {r : β × Bytes}

/-- A successful bind went through a successful first decoder. -/
theorem bind_eq_ok_iff :
    (d >>= f) bs = .ok r ↔ ∃ a rest, d bs = .ok (a, rest) ∧ f a rest = .ok r := by
  cases hd : d bs with
  | error e => simp [bind_of_error hd]
  | ok p =>
    obtain ⟨a, rest⟩ := p
    rw [bind_of_ok hd]
    simp

/-- What a read returns does not depend on the error it is given. -/
theorem take_congr {n : ℕ} {r : Bytes × Bytes} (h : Decoder.take n e bs = .ok r) (e' : ε) :
    Decoder.take n e' bs = .ok r := by
  unfold Decoder.take at h ⊢
  split_ifs at h ⊢
  exact h

theorem map_take_congr {n : ℕ} {f : Bytes → β}
    (h : (f <$> Decoder.take n e : Decoder ε β) bs = .ok r) (e' : ε) :
    (f <$> Decoder.take n e' : Decoder ε β) bs = .ok r := by
  rw [← bind_pure_comp] at h ⊢
  obtain ⟨a, rest, hd, hf⟩ := bind_eq_ok_iff.mp h
  rw [bind_of_ok (take_congr hd e')]
  exact hf

theorem u32_congr {r : UInt32 × Bytes} (h : Decoder.u32 e bs = .ok r) (e' : ε) :
    Decoder.u32 e' bs = .ok r := map_take_congr h e'

theorem u64_congr {r : UInt64 × Bytes} (h : Decoder.u64 e bs = .ok r) (e' : ε) :
    Decoder.u64 e' bs = .ok r := map_take_congr h e'

@[simp] theorem pure_apply (a : α) (bs : Bytes) :
    (Pure.pure a : Decoder ε α) bs = .ok (a, bs) := rfl

theorem Decodes.pure (a : α) : Decodes (Pure.pure a : Decoder ε α) [] a := fun _ => rfl

theorem Decodes.bind {bs' : Bytes} {b : β} (h : Decodes d bs a) (h' : Decodes (f a) bs' b) :
    Decodes (d >>= f) (bs ++ bs') b := by
  intro rest
  rw [List.append_assoc, bind_of_ok (h (bs' ++ rest)), h' rest]

/-- The last field of a record: what follows it consumes nothing. -/
theorem Decodes.last {b : β} (h : Decodes d bs a) (h' : Decodes (f a) [] b) :
    Decodes (d >>= f) bs b := by
  have := h.bind h'
  rwa [List.append_nil] at this

theorem Decodes.map {g : α → β} (h : Decodes d bs a) : Decodes (g <$> d) bs (g a) := by
  rw [← bind_pure_comp]
  exact h.last (Decodes.pure (g a))

theorem Refuses.bind (bs' : Bytes) (h : Refuses d bs) : Refuses (d >>= f) (bs ++ bs') := by
  intro rest
  rw [List.append_assoc]
  obtain ⟨e, he⟩ := h (bs' ++ rest)
  exact ⟨e, bind_of_error he⟩

/-- A decoder that fails behind a prefix that decodes fails. -/
theorem Decodes.refuses {bs' : Bytes} (h : Decodes d bs a) (h' : Refuses (f a) bs') :
    Refuses (d >>= f) (bs ++ bs') := by
  intro rest
  rw [List.append_assoc, bind_of_ok (h (bs' ++ rest))]
  exact h' rest

theorem decodes_take (bs : Bytes) (e : ε) : Decodes (Decoder.take bs.length e) bs bs := by
  intro rest
  simp [Decoder.take]

theorem decodes_u8 (b : UInt8) (e : ε) : Decodes (Decoder.u8 e) [b] b := fun _ => rfl

theorem decodes_u16 (v : UInt16) (e : ε) : Decodes (Decoder.u16 e) (le16 v) v := by
  have h := (decodes_take (le16 v) e).map (g := fun bs => UInt16.ofNat (leValue bs))
  rwa [length_le16, ofNat_leValue_le16] at h

theorem decodes_u32 (v : UInt32) (e : ε) : Decodes (Decoder.u32 e) (le32 v) v := by
  have h := (decodes_take (le32 v) e).map (g := fun bs => UInt32.ofNat (leValue bs))
  rwa [length_le32, ofNat_leValue_le32] at h

theorem decodes_u64 (v : UInt64) (e : ε) : Decodes (Decoder.u64 e) (le64 v) v := by
  have h := (decodes_take (le64 v) e).map (g := fun bs => UInt64.ofNat (leValue bs))
  rwa [length_le64, ofNat_leValue_le64] at h

theorem decodes_bool (b : Bool) (e : ε) : Decodes (Decoder.bool e) (leBool b) b := by
  cases b <;> exact fun _ => rfl

theorem decodes_string {bound : ℕ} (h : bs.length ≤ bound) (hsize : bs.length < 2 ^ 32) (e : ε) :
    Decodes (Decoder.string bound e) (le32 (UInt32.ofNat bs.length) ++ bs) bs := by
  have hlength : (UInt32.ofNat bs.length).toNat = bs.length := UInt32.toNat_ofNat_of_lt' hsize
  refine (decodes_u32 (UInt32.ofNat bs.length) e).bind ?_
  rw [hlength, if_neg (Nat.not_lt.mpr h)]
  exact decodes_take bs e

/-- A field that decodes, in front of the fields that follow it. -/
theorem Decodes.bind_apply (h : Decodes d bs a) (rest : Bytes) : (d >>= f) (bs ++ rest) = f a rest :=
  bind_of_ok (h rest)

@[simp] theorem bind_u8_apply (b : UInt8) (e : ε) (f : UInt8 → Decoder ε β) (rest : Bytes) :
    (Decoder.u8 e >>= f) (b :: rest) = f b rest :=
  (decodes_u8 b e).bind_apply rest

@[simp] theorem bind_u16_apply (v : UInt16) (e : ε) (f : UInt16 → Decoder ε β) (rest : Bytes) :
    (Decoder.u16 e >>= f) (le16 v ++ rest) = f v rest :=
  (decodes_u16 v e).bind_apply rest

@[simp] theorem bind_u32_apply (v : UInt32) (e : ε) (f : UInt32 → Decoder ε β) (rest : Bytes) :
    (Decoder.u32 e >>= f) (le32 v ++ rest) = f v rest :=
  (decodes_u32 v e).bind_apply rest

@[simp] theorem bind_u64_apply (v : UInt64) (e : ε) (f : UInt64 → Decoder ε β) (rest : Bytes) :
    (Decoder.u64 e >>= f) (le64 v ++ rest) = f v rest :=
  (decodes_u64 v e).bind_apply rest

@[simp] theorem bind_bool_apply (b : Bool) (e : ε) (f : Bool → Decoder ε β) (rest : Bytes) :
    (Decoder.bool e >>= f) (leBool b ++ rest) = f b rest :=
  (decodes_bool b e).bind_apply rest

variable {enc : α → Bytes}

/-- A counted run of items decodes when each item does. -/
theorem decodes_times (h : ∀ a ∈ as, Decodes d (enc a) a) :
    Decodes (d.times as.length) (as.flatMap enc) as := by
  induction as with
  | nil => exact Decodes.pure []
  | cons a as ih =>
    rw [List.length_cons, Decoder.times, List.flatMap_cons]
    have htail := ih fun b hb => h b (List.mem_cons_of_mem a hb)
    exact (h a List.mem_cons_self).bind (htail.last (Decodes.pure (a :: as)))

/-- A counted run of items is refused when one of them is and those before it decode. -/
theorem refuses_times (h : ∀ a ∈ as, Decodes d (enc a) a ∨ Refuses d (enc a))
    (hbad : ∃ a ∈ as, Refuses d (enc a)) :
    Refuses (d.times as.length) (as.flatMap enc) := by
  induction as with
  | nil => simp at hbad
  | cons a as ih =>
    rw [List.length_cons, Decoder.times, List.flatMap_cons]
    rcases h a List.mem_cons_self with hok | href
    · obtain ⟨c, hc, hcbad⟩ := hbad
      rcases List.mem_cons.mp hc with rfl | hc
      · exact hcbad.bind _
      · have htail := ih (fun b hb => h b (List.mem_cons_of_mem a hb)) ⟨c, hc, hcbad⟩
        have := hok.refuses (f := fun x => do let xs ← d.times as.length; pure (x :: xs))
          (htail.bind [])
        rwa [List.append_nil] at this
    · exact href.bind _

/-! ## Types with a wire form -/

/-- A type with an encoder, a decoder and the round trip between them: what fits the format is
read back as it was written. -/
class Wire (ε : outParam Type) (α : Type) where
  encode : α → List Bytes
  decode : Decoder ε α
  Fits : α → Prop := fun _ => True
  decodes : ∀ a, Fits a → Decodes decode (encode a).flatten a := by
    intro a _ rest
    simp [-bind_pure_comp]

export Wire (encode decode Fits)

/-- The bytes that an encoder writes. -/
def encoded [Wire ε α] (a : α) : Bytes := (encode a).flatten

theorem decodes_encoded [Wire ε α] (h : Fits a) : Decodes (decode : Decoder ε α) (encoded a) a :=
  Wire.decodes a h

/-- The chunks of a list of items are the chunks of the items in order. -/
theorem flatten_flatMap_encode [Wire ε α] (as : List α) :
    (as.flatMap encode).flatten = as.flatMap encoded := by
  induction as with
  | nil => rfl
  | cons a as ih =>
    rw [List.flatMap_cons, List.flatten_append, List.flatMap_cons, ih]
    rfl

/-- A field with a wire form, in front of the fields that follow it. -/
@[simp] theorem bind_decode_apply [Wire ε α] (h : Fits a) (f : α → Decoder ε β) (rest : Bytes) :
    (decode >>= f) ((encode a).flatten ++ rest) = f a rest :=
  (Wire.decodes a h).bind_apply rest

/-- A counted run of fields with a wire form, in front of the fields that follow it. -/
@[simp] theorem bind_times_decode_apply [Wire ε α] (h : ∀ a ∈ as, Fits a) (f : List α → Decoder ε β)
    (rest : Bytes) :
    (Decoder.times decode as.length >>= f) ((as.flatMap encode).flatten ++ rest) = f as rest := by
  rw [flatten_flatMap_encode]
  exact (decodes_times fun a ha => decodes_encoded (h a ha)).bind_apply rest

end ByteCodec
