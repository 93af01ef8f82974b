/-
# Session nonces

The coordinator remembers the nonces of accepted Hellos in a list of at most 4096, so
a replayed nonce is refused as long as it is among the last 4096 that were accepted.
`seenNonces_serveAll` says that the list is exactly that, in every run of sessions;
`accepted_nonces_nodup_iff` is the condition under which no nonce is accepted twice.
-/
import ElephantFlow.Sessions

namespace EFG

open ByteCodec

/-! ## The bounded history -/

theorem rememberNonce_rtake (nonces : List UInt64) (nonce : UInt64) :
    rememberNonce (nonces.rtake kMaxNonceHistory) nonce =
      (nonces ++ [nonce]).rtake kMaxNonceHistory := by
  have hpos : 0 < kMaxNonceHistory := by decide
  unfold rememberNonce List.rtake
  generalize kMaxNonceHistory = k at hpos
  rw [List.length_append, List.length_singleton, List.length_drop]
  by_cases hfull : nonces.length ≥ k
  · -- the oldest nonce makes room
    rw [if_pos (by omega), List.drop_drop, List.drop_append_of_le_length (by omega)]
    congr 2
    omega
  · rw [if_neg (by omega), Nat.sub_eq_zero_of_le (by omega), Nat.sub_eq_zero_of_le (by omega),
      List.drop_zero, List.drop_zero]

/-! ## Hello payloads -/

/-- A Hello with a short label fits the writer. -/
theorem encodeHello_eq {h : Hello} (hlabel : h.label.length ≤ kMaxNameBytes) :
    encodeHello h = .ok (helloChunks h).flatten := by
  have hfits : (helloChunks h).flatten.length ≤ 256 := by
    unfold kMaxNameBytes at hlabel
    unfold helloChunks
    simp only [List.flatten_cons, List.flatten_nil, List.length_append, length_le64, length_le32,
      List.length_nil]
    omega
  generalize hw : (({ ceiling := 256 } : ByteWriter).writeAll (helloChunks h)) = w
  have hover : w.overflowed = false := by
    rw [← hw]
    refine ByteWriter.writeAll_overflowed_eq_false rfl ?_
    rw [List.length_nil, Nat.zero_add]
    exact hfits
  have hbuffer : w.buffer = (helloChunks h).flatten := by
    rw [← hw] at hover ⊢
    rw [ByteWriter.writeAll_buffer hover, List.nil_append]
  unfold encodeHello
  rw [hw]
  simp only
  rw [hover, hbuffer]
  rfl

/-- What a worker sends as its Hello is read back. -/
theorem decodeHello_helloChunks {h : Hello} (hlabel : h.label.length ≤ kMaxNameBytes) :
    decodeHello (helloChunks h).flatten = .ok (h, []) := by
  have hlabel' : Decodes (Decoder.string kMaxNameBytes () : Decoder Unit Bytes)
      (le32 (UInt32.ofNat h.label.length) ++ h.label) h.label :=
    decodes_string hlabel (Nat.lt_of_le_of_lt hlabel (by decide)) ()
  unfold helloChunks decodeHello
  simp only [List.flatten_cons, List.flatten_nil, bind_u64_apply]
  rw [← List.append_assoc, hlabel'.bind_apply]
  rfl

namespace Coordinator

open Serving

/-! ## Accepted nonces -/

/-- The nonce of the Hello that a session accepts. -/
def acceptedNonce (c : Coordinator) : List (Except Status Frame) → Option UInt64
  | .ok first :: _ =>
    if first.header.type ≠ .hello then none
    else
      match (handleHello { coordinator := c } first).1, decodeHello first.payload with
      | .registered _, .ok (h, _) => some h.nonce
      | _, _ => none
  | _ => none

/-- The nonces that a run of sessions accepts, in order. -/
def acceptedNonces (c : Coordinator) : List (List (Except Status Frame)) → List UInt64
  | [] => []
  | reads :: sessions => (c.acceptedNonce reads).toList ++ (c.serveOne reads).acceptedNonces sessions

variable {c : Coordinator}

theorem acceptedNonce_eq_some {reads : List (Except Status Frame)} {n : UInt64} :
    c.acceptedNonce reads = some n ↔ ∃ first body h worker next, reads = .ok first :: body ∧
      first.header.type = .hello ∧ Registers c first h worker next ∧ h.nonce = n := by
  constructor
  · intro haccepted
    unfold acceptedNonce at haccepted
    split at haccepted
    swap
    · cases haccepted
    rename_i first body
    split_ifs at haccepted with htype
    rcases handleHello_cases { coordinator := c } first with ⟨s', heq, -, -⟩ |
      ⟨h, worker, next, hreg, heq⟩
    · rw [heq] at haccepted
      cases haccepted
    · obtain ⟨rest, hpayload⟩ := hreg.payload
      rw [heq, hpayload] at haccepted
      cases haccepted
      exact ⟨first, body, h, worker, next, rfl, not_not.mp htype, hreg, rfl⟩
  · rintro ⟨first, body, h, worker, next, rfl, htype, hreg, rfl⟩
    rcases handleHello_cases { coordinator := c } first with ⟨s', -, -, hno⟩ |
      ⟨h', worker', next', hreg', heq⟩
    · exact absurd hreg (hno h worker next)
    · obtain ⟨rest, hpayload⟩ := hreg.payload
      rw [acceptedNonce, if_neg (not_not.mpr htype), heq, hpayload]
      rfl

/-- The history after a session, and what the next session is checked against. -/
theorem serveOne_history (c : Coordinator) (reads : List (Except Status Frame)) :
    (c.serveOne reads).boot = c.boot ∧ (c.serveOne reads).limits = c.limits ∧
    (c.serveOne reads).seenNonces =
      (c.acceptedNonce reads).elim c.seenNonces (rememberNonce c.seenNonces) := by
  rcases reads with _ | ⟨e | first, body⟩
  · exact ⟨rfl, rfl, rfl⟩
  · exact ⟨rfl, rfl, rfl⟩
  rw [serveOne, serve]
  rcases serveFrom_cases { coordinator := c, outcome := { detail := "session opened" } } first with
    ⟨s', hrefused, hno, heq⟩ | ⟨h, worker, next, s', htype, hreg, hentered, heq⟩
  · have hnone : c.acceptedNonce (.ok first :: body) = none := by
      rw [Option.eq_none_iff_forall_ne_some]
      intro n hn
      obtain ⟨first', body', h, worker, next, heq, htype, hreg, -⟩ := acceptedNonce_eq_some.mp hn
      cases heq
      exact hno htype h worker next hreg
    rw [heq, hnone]
    show s'.coordinator.boot = c.boot ∧ s'.coordinator.limits = c.limits ∧
      s'.coordinator.seenNonces = c.seenNonces
    rw [hrefused.coordinator]
    exact ⟨rfl, rfl, rfl⟩
  · have hsome : c.acceptedNonce (.ok first :: body) = some h.nonce :=
      acceptedNonce_eq_some.mpr ⟨first, body, h, worker, next, rfl, htype, hreg, rfl⟩
    have hkept : s'.coordinator.boot = c.boot ∧ s'.coordinator.limits = c.limits ∧
        s'.coordinator.seenNonces = rememberNonce c.seenNonces h.nonce := by
      rw [hentered.coordinator]
      exact ⟨rfl, rfl, rfl⟩
    rw [hsome]
    rcases heq with ⟨f, -, heq⟩ | heq
    · rw [heq]
      exact hkept
    · rw [heq]
      obtain ⟨applied, -, htakes⟩ := serveStream_effect s' body
      exact ⟨htakes.same.boot.trans hkept.1, htakes.same.limits.trans hkept.2.1,
        htakes.same.nonces.trans hkept.2.2⟩

/-! ## Runs of sessions -/

theorem acceptedNonces_append (c : Coordinator) (before after : List (List (Except Status Frame))) :
    c.acceptedNonces (before ++ after) =
      c.acceptedNonces before ++ (c.serveAll before).acceptedNonces after := by
  induction before generalizing c with
  | nil => rfl
  | cons reads before ih =>
    rw [List.cons_append, acceptedNonces, acceptedNonces, ih, List.append_assoc]
    rfl

section

variable (c : Coordinator) (before : List (List (Except Status Frame)))
  (reads : List (Except Status Frame))

theorem serveAll_append : c.serveAll (before ++ [reads]) = (c.serveAll before).serveOne reads := by
  unfold serveAll
  rw [List.foldl_append, List.foldl_cons, List.foldl_nil]

theorem acceptedNonces_concat :
    c.acceptedNonces (before ++ [reads]) =
      c.acceptedNonces before ++ ((c.serveAll before).acceptedNonce reads).toList := by
  rw [acceptedNonces_append, acceptedNonces, acceptedNonces, List.append_nil]

end

theorem serveAll_boot (c : Coordinator) (sessions : List (List (Except Status Frame))) :
    (c.serveAll sessions).boot = c.boot ∧ (c.serveAll sessions).limits = c.limits := by
  induction sessions using List.reverseRecOn with
  | nil => exact ⟨rfl, rfl⟩
  | append_singleton before reads ih =>
    obtain ⟨hboot, hlimits, -⟩ := serveOne_history (c.serveAll before) reads
    rw [serveAll_append]
    exact ⟨hboot.trans ih.1, hlimits.trans ih.2⟩

theorem seenNonces_serveAll (hfresh : c.seenNonces = [])
    (sessions : List (List (Except Status Frame))) :
    (c.serveAll sessions).seenNonces = (c.acceptedNonces sessions).rtake kMaxNonceHistory := by
  induction sessions using List.reverseRecOn with
  | nil =>
    rw [acceptedNonces, List.rtake_nil]
    exact hfresh
  | append_singleton before reads ih =>
    obtain ⟨-, -, hseen⟩ := serveOne_history (c.serveAll before) reads
    rw [serveAll_append, hseen, acceptedNonces_concat, ih]
    rcases (c.serveAll before).acceptedNonce reads with _ | n
    · rw [Option.toList_none, List.append_nil, Option.elim_none]
    · rw [Option.toList_some, Option.elim_some, rememberNonce_rtake]

theorem nodup_acceptedNonces (c : Coordinator) (sessions : List (List (Except Status Frame))) :
    (c.acceptedNonces sessions).Nodup ↔ ∀ before reads after n,
      sessions = before ++ reads :: after → (c.serveAll before).acceptedNonce reads = some n →
        n ∉ c.acceptedNonces before := by
  induction sessions using List.reverseRecOn with
  | nil =>
    refine ⟨fun _ before reads after n heq => ?_, fun _ => List.nodup_nil⟩
    cases before <;> cases heq
  | append_singleton sessions last ih =>
    rw [acceptedNonces_concat, List.nodup_append, ih]
    constructor
    · rintro ⟨hbefore, -, hlast⟩ before reads after n heq hn hmem
      rcases after.eq_nil_or_concat with rfl | ⟨after, x, rfl⟩
      · obtain ⟨rfl, hsame⟩ := List.append_inj' heq rfl
        obtain rfl := List.head_eq_of_cons_eq hsame
        exact hlast n hmem n (Option.mem_toList.mpr hn) rfl
      · rw [List.concat_eq_append, ← List.cons_append, ← List.append_assoc] at heq
        obtain ⟨rfl, -⟩ := List.append_inj' heq rfl
        exact hbefore before reads after n rfl hn hmem
    · intro hall
      refine ⟨fun before reads after n heq => ?_, Option.toList_nodup _, ?_⟩
      · rw [heq, List.append_assoc] at hall
        exact hall before reads (after ++ [last]) n rfl
      · intro n hn n' hn' heq
        subst heq
        exact hall sessions last [] n rfl (Option.mem_toList.mp hn') hn

theorem registers_iff {first : Frame} {h : Hello} {worker next : WorkerId} :
    Registers c first h worker next ↔
      Registers { c with seenNonces := [] } first h worker next ∧ h.nonce ∉ c.seenNonces := by
  constructor
  · intro hreg
    exact ⟨⟨hreg.payload, hreg.headerEpoch, hreg.headerBoot, hreg.epoch, List.not_mem_nil,
      hreg.assigned⟩, hreg.nonce⟩
  · rintro ⟨hreg, hnonce⟩
    exact ⟨hreg.payload, hreg.headerEpoch, hreg.headerBoot, hreg.epoch, hnonce, hreg.assigned⟩

theorem seenNonces_create {config : CoordinatorConfig} {disk : Option Disk}
    (hc : create config disk = .ok c) : c.seenNonces = [] := by
  obtain ⟨b₀, b₁, b₂, b₃, -, -, -, -, rfl⟩ := create_eq_ok hc
  rfl

/-- No nonce is accepted twice in a run exactly if every Hello that would pass the other checks, and
that carries a nonce accepted before, comes while that nonce is among the last 4096. -/
theorem accepted_nonces_nodup_iff {config : CoordinatorConfig} {disk : Option Disk} {c : Coordinator}
    (hc : create config disk = .ok c) (sessions : List (List (Except Status Frame))) :
    (c.acceptedNonces sessions).Nodup ↔
      ∀ before first body after h worker next,
        sessions = before ++ (.ok first :: body) :: after → first.header.type = .hello →
        Registers { c.serveAll before with seenNonces := [] } first h worker next →
        h.nonce ∈ c.acceptedNonces before →
        h.nonce ∈ (c.acceptedNonces before).rtake kMaxNonceHistory := by
  have hfresh := seenNonces_create hc
  rw [nodup_acceptedNonces]
  constructor
  · intro hall before first body after h worker next heq htype hreg hmem
    by_contra hforgotten
    rw [← seenNonces_serveAll hfresh] at hforgotten
    have haccepted : (c.serveAll before).acceptedNonce (.ok first :: body) = some h.nonce :=
      acceptedNonce_eq_some.mpr
        ⟨first, body, h, worker, next, rfl, htype, registers_iff.mpr ⟨hreg, hforgotten⟩, rfl⟩
    exact hall before _ after h.nonce heq haccepted hmem
  · intro hall before reads after n heq haccepted hmem
    obtain ⟨first, body, h, worker, next, rfl, htype, hreg, rfl⟩ := acceptedNonce_eq_some.mp haccepted
    obtain ⟨hother, hfree⟩ := registers_iff.mp hreg
    rw [seenNonces_serveAll hfresh] at hfree
    exact hfree (hall before first body after h worker next heq htype hother hmem)

namespace Scenario

theorem payload_helloFrame (boot nonce : UInt64) :
    decodeHello (helloFrame (hello boot nonce)).payload = .ok (hello boot nonce, []) := by
  have hlabel : (hello boot nonce).label.length ≤ kMaxNameBytes := Nat.zero_le _
  unfold helloFrame
  rw [encodeHello_eq hlabel]
  exact decodeHello_helloChunks hlabel

/-- A session that only registers the first worker. -/
def registration (nonce : UInt64) : List (Except Status Frame) := [.ok (helloFrame (hello 1 nonce))]

variable {c : Coordinator}

theorem registers_hello (boot nonce : UInt64) (hepoch : c.boot.epoch = ⟨1⟩)
    (hworkers : 0 < c.limits.maxWorkers) (hfree : nonce ∉ c.seenNonces) : ∃ next,
    Registers c (helloFrame (hello boot nonce)) (hello boot nonce) ⟨1⟩ next := by
  have hassigned : assignWorker c.limits.maxWorkers c.nextWorkerId (hello boot nonce).requestedWorker =
      .ok (⟨1⟩, if (1 : UInt64) > c.nextWorkerId.value then ⟨1⟩ else c.nextWorkerId) := by
    have hone : (hello boot nonce).requestedWorker = 1 := rfl
    rw [hone, assignWorker, if_neg (by decide), if_neg]
    show ¬ 1 > c.limits.maxWorkers
    omega
  exact ⟨_, ⟨[], payload_helloFrame boot nonce⟩, rfl, rfl, hepoch, hfree, hassigned⟩

theorem acceptedNonce_registration {nonce : UInt64} (hepoch : c.boot.epoch = ⟨1⟩)
    (hworkers : 0 < c.limits.maxWorkers) (hfree : nonce ∉ c.seenNonces) :
    c.acceptedNonce (registration nonce) = some nonce := by
  obtain ⟨next, hreg⟩ := registers_hello 1 nonce hepoch hworkers hfree
  exact acceptedNonce_eq_some.mpr ⟨_, [], hello 1 nonce, _, next, rfl, rfl, hreg, rfl⟩

/-- Registrations are accepted as long as none of them replays one of the last 4096 nonces. -/
theorem acceptedNonces_registrations (hfresh : c.seenNonces = []) (hepoch : c.boot.epoch = ⟨1⟩)
    (hworkers : 0 < c.limits.maxWorkers) (nonces : List UInt64)
    (hfree : ∀ before n after, nonces = before ++ n :: after → n ∉ before.rtake kMaxNonceHistory) :
    c.acceptedNonces (nonces.map registration) = nonces := by
  induction nonces using List.reverseRecOn with
  | nil => rfl
  | append_singleton before n ih =>
    have hbefore : c.acceptedNonces (before.map registration) = before := by
      refine ih fun before' n' after heq => hfree before' n' (after ++ [n]) ?_
      rw [heq, List.append_assoc, List.cons_append]
    obtain ⟨hboot, hlimits⟩ := serveAll_boot c (before.map registration)
    have hnonce : n ∉ (c.serveAll (before.map registration)).seenNonces := by
      rw [seenNonces_serveAll hfresh, hbefore]
      exact hfree before n [] rfl
    rw [List.map_append, List.map_singleton, acceptedNonces_concat, hbefore,
      acceptedNonce_registration (by rw [hboot, hepoch]) (by rw [hlimits]; exact hworkers) hnonce]
    rfl

/-- One nonce more than the history holds, and then the first of them once more. -/
def replay (k : ℕ) : List UInt64 := (List.range (k + 1)).map UInt64.ofNat ++ [0]

theorem not_nodup_replay (k : ℕ) : ¬ (replay k).Nodup := by
  intro hnodup
  have hmem : (0 : UInt64) ∈ (List.range (k + 1)).map UInt64.ofNat :=
    List.mem_map.mpr ⟨0, List.mem_range.mpr (Nat.succ_pos k), rfl⟩
  exact (List.nodup_append.mp hnodup).2.2 0 hmem 0 (List.mem_singleton.mpr rfl) rfl

/-- Each nonce of the replay is new among the `k` in front of it. -/
theorem replay_free {k : ℕ} (hk : k + 1 < 2 ^ 64) {before after : List UInt64} {n : UInt64}
    (heq : replay k = before ++ n :: after) : n ∉ before.rtake k := by
  have hinj : ∀ i ∈ List.range (k + 1), ∀ j ∈ List.range (k + 1),
      UInt64.ofNat i = UInt64.ofNat j → i = j := by
    intro i hi j hj hij
    rw [List.mem_range] at hi hj
    have hnat := congrArg UInt64.toNat hij
    rwa [UInt64.toNat_ofNat_of_lt' (Nat.lt_trans hi hk), UInt64.toNat_ofNat_of_lt' (Nat.lt_trans hj hk)]
      at hnat
  rcases after.eq_nil_or_concat with rfl | ⟨after, x, rfl⟩
  · -- the replayed nonce itself: the history has lost exactly the first one
    obtain ⟨rfl, hlast⟩ := List.append_inj' heq rfl
    obtain rfl := List.head_eq_of_cons_eq hlast
    intro hmem
    rw [List.rtake, List.length_map, List.length_range, Nat.add_sub_cancel_left, ← List.map_drop]
      at hmem
    obtain ⟨i, hi, hzero⟩ := List.mem_map.mp hmem
    have hrange := List.mem_of_mem_drop hi
    obtain rfl := hinj i hrange 0 (List.mem_range.mpr (Nat.succ_pos k)) hzero
    rw [List.range_succ_eq_map, List.drop_one, List.tail_cons] at hi
    obtain ⟨j, -, hj⟩ := List.mem_map.mp hi
    cases hj
  · -- the nonces in front of it are all different
    unfold replay at heq
    rw [List.concat_eq_append, ← List.cons_append, ← List.append_assoc] at heq
    obtain ⟨hfront, -⟩ := List.append_inj' heq rfl
    have hnodup : ((List.range (k + 1)).map UInt64.ofNat).Nodup :=
      List.Nodup.map_on hinj List.nodup_range
    rw [hfront] at hnodup
    intro hmem
    exact (List.nodup_append.mp hnodup).2.2 n (List.mem_of_mem_drop hmem) n List.mem_cons_self rfl

end Scenario

open Scenario

/-- After 4096 further registrations the first nonce is accepted once more. -/
theorem nonce_accepted_twice : ∃ (c : Coordinator) (sessions : List (List (Except Status Frame))),
    create Scenario.config none = .ok c ∧ ¬ (c.acceptedNonces sessions).Nodup := by
  obtain ⟨c, hc, hepoch, hworkers⟩ : ∃ c, create Scenario.config none = .ok c ∧
    c.boot.epoch = ⟨1⟩ ∧ 0 < c.limits.maxWorkers := by decide +kernel
  refine ⟨c, (Scenario.replay kMaxNonceHistory).map registration, hc, ?_⟩
  rw [acceptedNonces_registrations (seenNonces_create hc) hepoch hworkers]
  · exact not_nodup_replay _
  · intro before n after heq
    exact replay_free (by decide) heq

/-- One registration, then the same again: the second is refused. -/
theorem accepted_nonces_nodup_registrations : ∃ c : Coordinator,
    create Scenario.config none = .ok c ∧
    ((c.acceptedNonces [registration 1, registration 1]).Nodup ↔
      ∀ before first body after h worker next,
        [registration 1, registration 1] =
          before ++ (.ok first :: body) :: after → first.header.type = .hello →
        Registers { c.serveAll before with seenNonces := [] } first h worker next →
        h.nonce ∈ c.acceptedNonces before →
        h.nonce ∈ (c.acceptedNonces before).rtake kMaxNonceHistory) ∧
    c.acceptedNonces [registration 1, registration 1] = [1] := by
  obtain ⟨c, hc, honce⟩ : ∃ c, create Scenario.config none = .ok c ∧ c.acceptedNonces
    [registration 1, registration 1] = [1] := by decide +kernel
  exact ⟨c, hc, accepted_nonces_nodup_iff hc _, honce⟩

end Coordinator

end EFG
