/-
# What an accepted input spells

Reusable infrastructure for binary formats, over the decoders of `ByteCodec`.

* `Sequential d` : what `d` accepts it accepts in front of any continuation, so
  that a decoder never looks past the bytes it consumes;
* `Spelt pre d S` : behind the bytes `pre`, the bytes that `d` consumes for the
  value `a` are related to `a` by `S`;
* `Canonical α` : the decoder of `α` consumes exactly the encoding of the value
  that it returns;
* `Ensures d P` : every value that `d` returns has the property `P`.

A sequential decoder refuses every proper prefix of an input that it consumes
as a whole.  All of them compose along the bind of decoders.
-/
import ElephantFlow.ByteCodec

namespace ByteCodec

variable {ε α β : Type} {d : Decoder ε α} {a : α} {pre : Bytes} {f : α → Decoder ε β}
  {S : β → Bytes → Prop} {enc : α → Bytes} {P : α → Prop} {Q : β → Prop}

/-! ## Sequential decoders -/

/-- What the decoder accepts it accepts in front of any continuation. -/
class Sequential (d : Decoder ε α) : Prop where
  extends_input : ∀ bs a rest, d bs = .ok (a, rest) → ∃ used, bs = used ++ rest ∧ Decodes d used a

instance (a : α) : Sequential (Pure.pure a : Decoder ε α) where
  extends_input := by
    intro bs b rest h
    obtain ⟨rfl, rfl⟩ := Prod.mk.inj (Except.ok.inj h)
    exact ⟨[], rfl, Decodes.pure a⟩

instance (e : ε) : Sequential (Decoder.refuse e : Decoder ε α) where
  extends_input := by
    intro bs a rest h
    simp [Decoder.refuse] at h

instance {d : Decoder ε α} {f : α → Decoder ε β} [hd : Sequential d] [hf : ∀ a, Sequential (f a)] :
    Sequential (d >>= f) where
  extends_input := by
    intro bs b rest h
    obtain ⟨a, mid, ha, hb⟩ := bind_eq_ok_iff.mp h
    obtain ⟨used, rfl, hused⟩ := hd.extends_input bs a mid ha
    obtain ⟨used', rfl, hused'⟩ := (hf a).extends_input mid b rest hb
    exact ⟨used ++ used', (List.append_assoc ..).symm, hused.bind hused'⟩

instance {d : Decoder ε α} {g : α → β} [Sequential d] : Sequential (g <$> d) := by
  rw [← bind_pure_comp]
  infer_instance

instance {c : Prop} [Decidable c] {d d' : Decoder ε α} [Sequential d] [Sequential d'] :
    Sequential (if c then d else d') := by
  split_ifs <;> infer_instance

instance (n : ℕ) (e : ε) : Sequential (Decoder.take n e) where
  extends_input := by
    intro bs a rest h
    unfold Decoder.take at h
    split_ifs at h with hlt
    obtain ⟨rfl, rfl⟩ := Prod.mk.inj (Except.ok.inj h)
    refine ⟨bs.take n, (List.take_append_drop n bs).symm, ?_⟩
    have hlen : (bs.take n).length = n := List.length_take_of_le (by omega)
    have := decodes_take (bs.take n) e
    rwa [hlen] at this

instance (e : ε) : Sequential (Decoder.u8 e) where
  extends_input := by
    intro bs a rest h
    cases bs with
    | nil => simp [Decoder.u8] at h
    | cons b bs =>
      obtain ⟨rfl, rfl⟩ := Prod.mk.inj (Except.ok.inj h)
      exact ⟨[b], rfl, decodes_u8 b e⟩

instance (e : ε) : Sequential (Decoder.u32 e) := by
  unfold Decoder.u32
  infer_instance

instance (e : ε) : Sequential (Decoder.u64 e) := by
  unfold Decoder.u64
  infer_instance

instance (e : ε) : Sequential (Decoder.bool e) := by
  unfold Decoder.bool
  infer_instance

instance (d : Decoder ε α) [Sequential d] (n : ℕ) : Sequential (d.times n) := by
  induction n with
  | zero =>
    unfold Decoder.times
    infer_instance
  | succ n ih =>
    unfold Decoder.times
    infer_instance

theorem Sequential.refuses_prefix [hd : Sequential d] {bs p : Bytes} (h : Decodes d bs a)
    (hp : p <+: bs) (hne : p ≠ bs) : ∃ e, d p = .error e := by
  cases hdp : d p with
  | error e => exact ⟨e, rfl⟩
  | ok r =>
    obtain ⟨b, rest⟩ := r
    obtain ⟨tail, rfl⟩ := hp
    obtain ⟨used, rfl, hused⟩ := hd.extends_input p b rest hdp
    -- The bytes behind `used` would be left over, but the decoder leaves none.
    have hleft := hused (rest ++ tail)
    have hall := h []
    rw [List.append_nil, List.append_assoc, hleft] at hall
    have hnil := (Prod.mk.inj (Except.ok.inj hall)).2
    rw [(List.append_eq_nil_iff.mp hnil).2, List.append_nil] at hne
    exact absurd rfl hne

/-! ## Spelled values -/

/-- Behind `pre`, the bytes that the decoder consumes for `a` spell `a` in the sense of `S`. -/
def Spelt (pre : Bytes) (d : Decoder ε α) (S : α → Bytes → Prop) : Prop :=
  ∀ bs a rest, d bs = .ok (a, rest) → ∃ used, bs = used ++ rest ∧ S a (pre ++ used)

/-- A field whose value determines the bytes that were read. -/
def SpelledBy (d : Decoder ε α) (enc : α → Bytes) : Prop :=
  Spelt [] d fun a used => used = enc a

theorem Spelt.pure {S : α → Bytes → Prop} (h : S a pre) :
    Spelt pre (Pure.pure a : Decoder ε α) S := by
  intro bs b rest hb
  obtain ⟨rfl, rfl⟩ := Prod.mk.inj (Except.ok.inj hb)
  refine ⟨[], rfl, ?_⟩
  rwa [List.append_nil]

theorem Spelt.refuse (pre : Bytes) (S : α → Bytes → Prop) (e : ε) :
    Spelt pre (Decoder.refuse e : Decoder ε α) S := by
  intro bs a rest h
  simp [Decoder.refuse] at h

/-- A first field, related to its bytes by `T`, in front of the fields that follow it. -/
theorem Spelt.bind {T : α → Bytes → Prop} (hd : Spelt [] d T)
    (hf : ∀ a used, T a used → Spelt (pre ++ used) (f a) S) : Spelt pre (d >>= f) S := by
  intro bs b rest h
  obtain ⟨a, mid, ha, hb⟩ := bind_eq_ok_iff.mp h
  obtain ⟨used, rfl, hused⟩ := hd bs a mid ha
  obtain ⟨used', rfl, hused'⟩ := hf a used hused mid b rest hb
  refine ⟨used ++ used', (List.append_assoc ..).symm, ?_⟩
  rwa [← List.append_assoc]

/-- A first field that its value spells, in front of the fields that follow it. -/
theorem SpelledBy.bind (hd : SpelledBy d enc) (hf : ∀ a, Spelt (pre ++ enc a) (f a) S) :
    Spelt pre (d >>= f) S := by
  refine Spelt.bind hd ?_
  rintro a _ rfl
  exact hf a

theorem spelledBy_take {γ : Type} {n : ℕ} {e : ε} {g : Bytes → γ} {enc : γ → Bytes}
    (h : ∀ bs : Bytes, bs.length = n → enc (g bs) = bs) :
    SpelledBy (g <$> Decoder.take n e) enc := by
  intro bs a rest ha
  rw [← bind_pure_comp] at ha
  obtain ⟨w, mid, hw, ha⟩ := bind_eq_ok_iff.mp ha
  obtain ⟨rfl, rfl⟩ := Prod.mk.inj (Except.ok.inj ha)
  unfold Decoder.take at hw
  split_ifs at hw with hlt
  obtain ⟨rfl, rfl⟩ := Prod.mk.inj (Except.ok.inj hw)
  have hlen : (bs.take n).length = n := List.length_take_of_le (by omega)
  exact ⟨bs.take n, (List.take_append_drop n bs).symm, (h _ hlen).symm⟩

theorem spelledBy_u8 (e : ε) : SpelledBy (Decoder.u8 e) fun b => [b] := by
  intro bs a rest h
  cases bs with
  | nil => simp [Decoder.u8] at h
  | cons b bs =>
    obtain ⟨rfl, rfl⟩ := Prod.mk.inj (Except.ok.inj h)
    exact ⟨[b], rfl, rfl⟩

/-- Only the bytes `0` and `1` are flags, so that a flag determines its byte. -/
theorem spelledBy_bool (e : ε) : SpelledBy (Decoder.bool e) leBool := by
  refine (spelledBy_u8 e).bind fun raw => ?_
  split_ifs with h
  · exact Spelt.refuse _ _ e
  · refine Spelt.pure ?_
    have hle : raw.toNat ≤ 1 := UInt8.le_iff_toNat_le.mp (UInt8.not_lt.mp h)
    rcases (by omega : raw.toNat = 0 ∨ raw.toNat = 1) with h0 | h1
    · obtain rfl : raw = 0 := UInt8.toNat_inj.mp h0
      rfl
    · obtain rfl : raw = 1 := UInt8.toNat_inj.mp h1
      rfl

/-- A reader whose value spells the bytes that it consumes, so that a structure can be read field by
field. -/
class Spells (d : Decoder ε α) (enc : outParam (α → Bytes)) : Prop where
  spelledBy : SpelledBy d enc

/-- A first field of a structure, in front of the fields that follow it. -/
theorem Spells.bind [hd : Spells d enc] (hf : ∀ a, Spelt (pre ++ enc a) (f a) S) :
    Spelt pre (d >>= f) S := hd.spelledBy.bind hf

instance (e : ε) : Spells (Decoder.u32 e) le32 := ⟨spelledBy_take fun _ h => le32_ofNat_leValue h⟩

instance (e : ε) : Spells (Decoder.u64 e) le64 := ⟨spelledBy_take fun _ h => le64_ofNat_leValue h⟩

instance (e : ε) : Spells (Decoder.bool e) leBool := ⟨spelledBy_bool e⟩

/-- A counted run of items spells the encodings of the items. -/
theorem SpelledBy.times (h : SpelledBy d enc) (n : ℕ) :
    Spelt [] (d.times n) fun as used => as.length = n ∧ used = as.flatMap enc := by
  induction n with
  | zero => exact Spelt.pure ⟨rfl, rfl⟩
  | succ n ih =>
    refine h.bind fun a => ?_
    refine Spelt.bind ih ?_
    rintro as _ ⟨hlen, rfl⟩
    exact Spelt.pure ⟨congrArg (· + 1) hlen, rfl⟩

/-! ## Canonical types -/

/-- A type whose decoder consumes exactly the encoding of the value that it returns.  A structure is
read field by field. -/
class Canonical (α : Type) [Wire ε α] : Prop where
  spelled : SpelledBy (decode : Decoder ε α) encoded := by
    repeat refine Spells.bind fun _ => ?_
    exact Spelt.pure (by simp [encoded, encode])

instance [Wire ε α] [hc : Canonical α] : Spells (decode : Decoder ε α) encoded := ⟨hc.spelled⟩

/-- A counted run of fields of a canonical type. -/
theorem Canonical.times [Wire ε α] [hc : Canonical α] (n : ℕ) :
    Spelt [] (Decoder.times (decode : Decoder ε α) n) fun as used =>
      as.length = n ∧ used = (as.flatMap encode).flatten := by
  intro bs as rest h
  obtain ⟨used, rfl, hlen, rfl⟩ := hc.spelled.times n bs as rest h
  refine ⟨_, rfl, hlen, ?_⟩
  rw [List.nil_append, flatten_flatMap_encode]

/-! ## What accepted values satisfy -/

/-- Every value that the decoder returns has the property. -/
def Ensures (d : Decoder ε α) (P : α → Prop) : Prop := ∀ bs a rest, d bs = .ok (a, rest) → P a

theorem Ensures.pure (h : P a) : Ensures (Pure.pure a : Decoder ε α) P := by
  intro bs b rest hb
  obtain ⟨rfl, -⟩ := Prod.mk.inj (Except.ok.inj hb)
  exact h

theorem Ensures.refuse (P : α → Prop) (e : ε) : Ensures (Decoder.refuse e : Decoder ε α) P := by
  intro bs a rest h
  simp [Decoder.refuse] at h

theorem Ensures.bind (hd : Ensures d P) (hf : ∀ a, P a → Ensures (f a) Q) : Ensures (d >>= f) Q := by
  intro bs b rest h
  obtain ⟨a, mid, ha, hb⟩ := bind_eq_ok_iff.mp h
  exact hf a (hd bs a mid ha) mid b rest hb

/-- A field about which nothing has to be known. -/
theorem Ensures.skip (hf : ∀ a, Ensures (f a) Q) : Ensures (d >>= f) Q := by
  refine Ensures.bind (P := fun _ => True) (fun _ _ _ _ => trivial) fun a _ => hf a

theorem Ensures.times (h : Ensures d P) (n : ℕ) :
    Ensures (d.times n) fun as => as.length = n ∧ ∀ a ∈ as, P a := by
  induction n with
  | zero => exact Ensures.pure ⟨rfl, by simp⟩
  | succ n ih =>
    refine h.bind fun a ha => Ensures.bind ih ?_
    rintro as ⟨hlen, has⟩
    refine Ensures.pure ⟨congrArg (· + 1) hlen, ?_⟩
    exact List.forall_mem_cons.mpr ⟨ha, has⟩

end ByteCodec
