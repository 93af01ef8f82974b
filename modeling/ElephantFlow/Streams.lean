/-
# What a session reads and applies

`handle_stream` leaves its loop in three ways: by a break of the loop, by a
return, and by the end of the reads.  A Shutdown frame only breaks the switch,
so that the loop goes on behind it.  The header of a frame carries a sequence
number, which no branch of the loop compares.

* `consumed` : the reads that the loop performs;
* `applied` : the frames among them that act on the coordinator;
* `openAfter` : the state of the loop behind a list of reads that it went
  through.
-/
import ElephantFlow.Sessions

namespace EFG

open ByteCodec

/-- The frames among the reads of a session. -/
def framesOf (reads : List (Except Status Frame)) : List Frame := reads.filterMap Except.toOption

/-- The frame without its sequence number. -/
def Frame.unnumbered (f : Frame) : Frame := { f with header := { f.header with sequence := 0 } }

/-- The sequence numbers of the frames increase strictly. -/
def Ascending (frames : List Frame) : Prop :=
  frames.Pairwise fun f g => f.header.sequence < g.header.sequence

instance (frames : List Frame) : Decidable (Ascending frames) :=
  inferInstanceAs (Decidable (frames.Pairwise _))

namespace Serving

variable {s s' : Serving} {f : Frame} {cleanBye cleanBye' : Bool}
  {pre post reads : List (Except Status Frame)} {read : Except Status Frame}

/-! ## The loop -/

/-- The loop goes through all of these reads. -/
def openAfter (s : Serving) (cleanBye : Bool) :
    List (Except Status Frame) → Option (Serving × Bool)
  | [] => some (s, cleanBye)
  | read :: reads =>
    match s.handleRead cleanBye read with
    | (.again cleanBye, s) => openAfter s cleanBye reads
    | _ => none

/-- The reads that the loop performs. -/
def consumed (s : Serving) (cleanBye : Bool) :
    List (Except Status Frame) → List (Except Status Frame)
  | [] => []
  | read :: reads =>
    match s.handleRead cleanBye read with
    | (.again cleanBye, s) => read :: consumed s cleanBye reads
    | _ => [read]

/-- The frame carries the registered identity, and its branch of the switch takes its payload. -/
def applies (s : Serving) (f : Frame) : Bool :=
  f.header.epoch = s.coordinator.boot.epoch && f.header.worker = s.outcome.worker &&
    f.header.boot = s.outcome.boot &&
    match f.header.type with
    | .heartbeat => ((Decoder.u64 () : Decoder Unit UInt64) f.payload).isOk
    | .evidenceBatch => (s.applyEvidenceBatch f.payload s.coordinator.lastTick).1.isOk
    | .flowCompletion => (s.applyCompletion f.payload s.coordinator.lastTick).1.isOk
    | _ => false

/-- The frames that the loop applies. -/
def applied (s : Serving) (cleanBye : Bool) : List (Except Status Frame) → List Frame
  | [] => []
  | read :: reads =>
    (framesOf [read]).filter s.applies ++
      match s.handleRead cleanBye read with
      | (.again cleanBye, s) => applied s cleanBye reads
      | _ => []

theorem openAfter_cons_again (h : s.handleRead cleanBye read = (.again cleanBye', s'))
    (reads : List (Except Status Frame)) :
    s.openAfter cleanBye (read :: reads) = s'.openAfter cleanBye' reads := by
  rw [openAfter, h]

theorem consumed_cons_again (h : s.handleRead cleanBye read = (.again cleanBye', s'))
    (reads : List (Except Status Frame)) :
    s.consumed cleanBye (read :: reads) = read :: s'.consumed cleanBye' reads := by
  rw [consumed, h]

theorem handleStream_cons_again (h : s.handleRead cleanBye read = (.again cleanBye', s'))
    (reads : List (Except Status Frame)) :
    s.handleStream cleanBye (read :: reads) = s'.handleStream cleanBye' reads := by
  rw [handleStream, h]

/-- The first read of a list that the loop goes through. -/
theorem openAfter_cons_eq_some {r : Serving × Bool}
    (h : s.openAfter cleanBye (read :: reads) = some r) : ∃ s' cleanBye',
      s.handleRead cleanBye read = (.again cleanBye', s') ∧ s'.openAfter cleanBye' reads = some r := by
  rcases hread : s.handleRead cleanBye read with ⟨next, s₁⟩
  rw [openAfter, hread] at h
  cases next with
  | again cleanBye₁ => exact ⟨s₁, cleanBye₁, rfl, h⟩
  | leave => cases h
  | stop => cases h

theorem openAfter_append (pre reads : List (Except Status Frame)) (s : Serving) (cleanBye : Bool) :
    s.openAfter cleanBye (pre ++ reads) =
      (s.openAfter cleanBye pre).bind fun r => r.1.openAfter r.2 reads := by
  induction pre generalizing s cleanBye with
  | nil => rfl
  | cons read pre ih =>
    rcases hread : s.handleRead cleanBye read with ⟨next, s₁⟩
    rw [List.cons_append, openAfter, openAfter, hread]
    cases next with
    | again cleanBye₁ => exact ih s₁ cleanBye₁
    | leave => rfl
    | stop => rfl

theorem consumed_append (h : s.openAfter cleanBye pre = some (s', cleanBye'))
    (post : List (Except Status Frame)) :
    s.consumed cleanBye (pre ++ post) = pre ++ s'.consumed cleanBye' post := by
  induction pre generalizing s cleanBye with
  | nil =>
    obtain ⟨rfl, rfl⟩ := Prod.mk.inj (Option.some.inj h)
    rfl
  | cons read pre ih =>
    obtain ⟨s₁, cleanBye₁, hread, hrest⟩ := openAfter_cons_eq_some h
    rw [List.cons_append, consumed_cons_again hread, ih hrest, List.cons_append]

theorem handleStream_of_openAfter (h : s.openAfter cleanBye pre = some (s', cleanBye'))
    (post : List (Except Status Frame)) :
    s.handleStream cleanBye (pre ++ post) = s'.handleStream cleanBye' post := by
  induction pre generalizing s cleanBye with
  | nil =>
    obtain ⟨rfl, rfl⟩ := Prod.mk.inj (Option.some.inj h)
    rfl
  | cons read pre ih =>
    obtain ⟨s₁, cleanBye₁, hread, hrest⟩ := openAfter_cons_eq_some h
    rw [List.cons_append, handleStream_cons_again hread, ih hrest]

/-- The loop is open in front of each read that it performs. -/
theorem consumed_split {tail : List (Except Status Frame)}
    (h : s.consumed cleanBye reads = pre ++ read :: tail) : ∃ s' cleanBye' post,
      s.openAfter cleanBye pre = some (s', cleanBye') ∧ reads = pre ++ read :: post ∧
      s'.consumed cleanBye' (read :: post) = read :: tail := by
  induction pre generalizing s cleanBye reads with
  | nil =>
    cases reads with
    | nil => cases h
    | cons r reads =>
      have hhead : r = read := by
        rcases hread : s.handleRead cleanBye r with ⟨next, s₁⟩
        rw [consumed, hread] at h
        cases next <;> exact (List.cons.inj h).1
      subst hhead
      exact ⟨s, cleanBye, reads, rfl, rfl, h⟩
  | cons r pre ih =>
    cases reads with
    | nil => cases h
    | cons r' reads =>
      rcases hread : s.handleRead cleanBye r' with ⟨next, s₁⟩
      cases next with
      | again cleanBye₁ =>
        rw [consumed_cons_again hread, List.cons_append] at h
        obtain ⟨rfl, htail⟩ := List.cons.inj h
        obtain ⟨s₂, cleanBye₂, post, hopen, rfl, hrest⟩ := ih htail
        exact ⟨s₂, cleanBye₂, post, (openAfter_cons_again hread pre).trans hopen, rfl, hrest⟩
      | leave =>
        rw [consumed, hread, List.cons_append] at h
        have := (List.cons.inj h).2
        simp at this
      | stop =>
        rw [consumed, hread, List.cons_append] at h
        have := (List.cons.inj h).2
        simp at this

theorem handleStream_split (reads : List (Except Status Frame)) (s : Serving) (cleanBye : Bool) :
    ∃ pre s' cleanBye', s.openAfter cleanBye pre = some (s', cleanBye') ∧
      ((reads = pre ∧ s.handleStream cleanBye reads = (.ok (), s'.withCleanBye cleanBye')) ∨
        ∃ read post s'', reads = pre ++ read :: post ∧
          ((∃ b, s'.handleRead cleanBye' read = (.leave b, s'') ∧
              s.handleStream cleanBye reads = (.ok (), s''.withCleanBye b)) ∨
            ∃ result, s'.handleRead cleanBye' read = (.stop result, s'') ∧
              s.handleStream cleanBye reads = (result, s''))) := by
  induction reads generalizing s cleanBye with
  | nil => exact ⟨[], s, cleanBye, rfl, .inl ⟨rfl, rfl⟩⟩
  | cons read reads ih =>
    rcases hread : s.handleRead cleanBye read with ⟨next, s₁⟩
    cases next with
    | again cleanBye₁ =>
      obtain ⟨pre, s₂, cleanBye₂, hopen, hend⟩ := ih s₁ cleanBye₁
      refine ⟨read :: pre, s₂, cleanBye₂, (openAfter_cons_again hread pre).trans hopen, ?_⟩
      rw [handleStream_cons_again hread]
      rcases hend with ⟨rfl, hend⟩ | ⟨read', post, s₃, rfl, hend⟩
      · exact .inl ⟨rfl, hend⟩
      · exact .inr ⟨read', post, s₃, rfl, hend⟩
    | leave b =>
      refine ⟨[], s, cleanBye, rfl, .inr ⟨read, reads, s₁, rfl, .inl ⟨b, hread, ?_⟩⟩⟩
      rw [handleStream, hread]
    | stop result =>
      refine ⟨[], s, cleanBye, rfl, .inr ⟨read, reads, s₁, rfl, .inr ⟨result, hread, ?_⟩⟩⟩
      rw [handleStream, hread]

/-! ## The verdict of a session -/

/-- Only the end of the loop writes the clean flag. -/
theorem cleanBye_handleRead (s : Serving) (cleanBye : Bool) (read : Except Status Frame) :
    (s.handleRead cleanBye read).2.outcome.cleanBye = s.outcome.cleanBye := by
  obtain ⟨inputs, hround⟩ := handleRead_effect s cleanBye read
  exact hround.works.clean

theorem handleRead_closed (s : Serving) (cleanBye : Bool) {e : Status} (he : e.code = .closed) :
    s.handleRead cleanBye (.error e) = (.leave cleanBye, { s with
      outcome := { s.outcome with detail := "peer closed the connection" } }) := by
  unfold handleRead
  simp only
  rw [if_pos he]

theorem handleRead_failed (s : Serving) (cleanBye : Bool) {e : Status} (he : e.code ≠ .closed) :
    s.handleRead cleanBye (.error e) =
      (.leave cleanBye, s.fenceSession .frameMalformed "frame read failed") := by
  unfold handleRead
  simp only
  rw [if_neg he]

/-- A Shutdown frame of the registered identity sets the flag, and the loop goes on. -/
theorem handleRead_shutdown (s : Serving) (cleanBye : Bool) (hmatches : s.Matches f)
    (htype : f.header.type = .shutdown) : s.handleRead cleanBye (.ok f) =
      (.again true, { s with outcome := { s.outcome with frames := s.outcome.frames + 1 } }) := by
  unfold handleRead handleFrame
  simp only
  rw [if_neg (not_not.mpr hmatches.epoch), if_neg (not_not.mpr hmatches.worker),
    if_neg (not_not.mpr hmatches.boot), htype, if_neg (by decide), if_neg (by decide)]
  unfold dispatch
  rw [htype]

/-- The loop is left without a fence, or with the flag it had. -/
theorem flag_of_handleRead_leave (h : s.handleRead cleanBye read = (.leave cleanBye', s')) :
    s'.outcome.fenced = s.outcome.fenced ∨ cleanBye' = cleanBye := by
  obtain ⟨inputs, -, -, hnext⟩ := handleRead_effect s cleanBye read
  rw [h] at hnext
  rcases hnext with ⟨b, hb, hflag⟩ | ⟨r, hr⟩ | ⟨f, b, rfl, -, -, hb, -⟩
  · cases hb
    exact hflag
  · cases hr
  · cases hb

/-- While the loop is open the session is not fenced and the clean flag of its outcome is not set;
the flag of the loop is set only by a Shutdown frame that it went through. -/
theorem of_openAfter (h : s.openAfter cleanBye pre = some (s', cleanBye')) :
    s'.outcome.fenced = s.outcome.fenced ∧ s'.outcome.cleanBye = s.outcome.cleanBye ∧
    (cleanBye' = true → cleanBye = true ∨ ∃ pre₁ f pre₂ s₁ cleanBye₁, pre = pre₁ ++ .ok f :: pre₂ ∧
      s.openAfter cleanBye pre₁ = some (s₁, cleanBye₁) ∧ s₁.Matches f ∧
      f.header.type = .shutdown) := by
  induction pre generalizing s cleanBye with
  | nil =>
    obtain ⟨rfl, rfl⟩ := Prod.mk.inj (Option.some.inj h)
    exact ⟨rfl, rfl, .inl⟩
  | cons read pre ih =>
    obtain ⟨s₁, cleanBye₁, hread, hrest⟩ := openAfter_cons_eq_some h
    obtain ⟨hfenced, hclean, hflag⟩ := ih hrest
    have hclean₁ := cleanBye_handleRead s cleanBye read
    rw [hread] at hclean₁
    obtain ⟨hfenced₁, f₁, rfl, hmatches₁, -, hflag₁⟩ := of_handleRead_again hread
    refine ⟨hfenced.trans hfenced₁, hclean.trans hclean₁, fun hset => ?_⟩
    rcases hflag hset with hset₁ | ⟨pre₁, f, pre₂, s₂, cleanBye₂, rfl, hopen, hmatches, htype⟩
    · rcases hflag₁ with hsame | htype
      · exact .inl (hsame ▸ hset₁)
      · exact .inr ⟨[], f₁, pre, s, cleanBye, rfl, rfl, hmatches₁, htype⟩
    · exact .inr ⟨.ok f₁ :: pre₁, f, pre₂, s₂, cleanBye₂, rfl,
        (openAfter_cons_again hread pre₁).trans hopen, hmatches, htype⟩

/-! ## The end of a stream -/

/-- Nothing more is read, or the peer closes the connection. -/
def HangsUp : List (Except Status Frame) → Prop
  | [] => True
  | .error e :: _ => e.code = .closed
  | .ok _ :: _ => False

/-- What follows a Shutdown frame that the open loop takes is the end of the connection. -/
def ShutdownHangsUp (s : Serving) (body : List (Except Status Frame)) : Prop :=
  ∀ pre f post s' cleanBye, body = pre ++ .ok f :: post → f.header.type = .shutdown →
    s.openAfter false pre = some (s', cleanBye) → s'.Matches f → HangsUp post

/-- No frame is read behind a Bye or a Shutdown frame that was read. -/
def NothingBehind (reads : List (Except Status Frame)) : Prop :=
  ∀ pre f post, reads = pre ++ .ok f :: post →
    f.header.type = .bye ∨ f.header.type = .shutdown → ∀ g, .ok g ∉ post

/-- The session ended cleanly and was fenced. -/
def EndedTwice (s : Serving) : Prop := s.outcome.cleanBye = true ∧ s.outcome.fenced = true

theorem nothingBehind_consumed (h : ShutdownHangsUp s reads) :
    NothingBehind (s.consumed false reads) := by
  intro pre f tail hsplit htype g hg
  obtain ⟨s₁, cleanBye₁, post, hopen, rfl, htail⟩ := consumed_split hsplit
  rcases hread : s₁.handleRead cleanBye₁ (.ok f) with ⟨next, s₂⟩
  cases next with
  | again cleanBye₂ =>
    obtain ⟨-, _, ⟨⟩, hmatches, hne, -⟩ := of_handleRead_again hread
    have hshutdown := htype.resolve_left hne
    have hup := h pre f post s₁ cleanBye₁ rfl hshutdown hopen hmatches
    rw [consumed_cons_again hread] at htail
    rw [← (List.cons.inj htail).2] at hg
    rcases post with _ | ⟨e | g', post⟩
    · cases hg
    · rw [consumed, handleRead_closed s₂ cleanBye₂ hup] at hg
      cases List.mem_singleton.mp hg
    · exact hup
  | leave =>
    rw [consumed, hread] at htail
    rw [← (List.cons.inj htail).2] at hg
    cases hg
  | stop =>
    rw [consumed, hread] at htail
    rw [← (List.cons.inj htail).2] at hg
    cases hg

/-- Behind a Shutdown that it took, the loop is left by the end of the connection. -/
theorem hangsUp_of_openAfter (h : ShutdownHangsUp s (pre ++ post))
    (hopen : s.openAfter false pre = some (s', true)) : HangsUp post := by
  rcases (of_openAfter hopen).2.2 rfl with hfalse | ⟨pre₁, f, pre₂, s₁, b₁, rfl, hopen₁, hmatches, htype⟩
  · cases hfalse
  have hup := h pre₁ f (pre₂ ++ post) s₁ b₁ (by simp) htype hopen₁ hmatches
  -- A read behind the Shutdown that the loop went through would be a frame.
  rcases pre₂ with _ | ⟨read, pre₂⟩
  · exact hup
  rw [openAfter_append, hopen₁, Option.bind_some] at hopen
  obtain ⟨s₂, b₂, -, hrest⟩ := openAfter_cons_eq_some hopen
  obtain ⟨s₃, b₃, hread, -⟩ := openAfter_cons_eq_some hrest
  obtain ⟨-, g, rfl, -⟩ := of_handleRead_again hread
  exact absurd hup id

theorem not_endedTwice_handleStream (hfenced : s.outcome.fenced = false)
    (hclean : s.outcome.cleanBye = false) (h : ShutdownHangsUp s reads) :
    ¬ EndedTwice (s.handleStream false reads).2 := by
  obtain ⟨pre, s₁, b, hopen, hend⟩ := handleStream_split reads s false
  obtain ⟨hfenced₁, hclean₁, -⟩ := of_openAfter hopen
  rw [hfenced] at hfenced₁
  rw [hclean] at hclean₁
  rintro ⟨hbye, hfence⟩
  rcases hend with ⟨rfl, heq⟩ | ⟨read, post, s₂, rfl, ⟨b', hread, heq⟩ | ⟨result, hread, heq⟩⟩
  · rw [heq] at hfence
    exact Bool.false_ne_true (hfenced₁.symm.trans hfence)
  · rw [heq] at hbye hfence
    have hfence : s₂.outcome.fenced = true := hfence
    have hbye : b' = true := hbye
    rcases flag_of_handleRead_leave hread with hkept | hsame
    · exact Bool.false_ne_true ((hkept.trans hfenced₁).symm.trans hfence)
    -- The loop was fenced with its flag set: a Shutdown stands before, so this read is a close.
    rw [hsame] at hbye
    subst hbye
    have hup := hangsUp_of_openAfter h hopen
    rcases read with e | f
    · rw [handleRead_closed s₁ true hup] at hread
      have hopen₂ : s₂.outcome.fenced = false := by
        rw [← (Prod.mk.inj hread).2]
        exact hfenced₁
      exact Bool.false_ne_true (hopen₂.symm.trans hfence)
    · exact hup
  · have hkept := cleanBye_handleRead s₁ b read
    rw [hread] at hkept
    rw [heq] at hbye
    exact Bool.false_ne_true ((hkept.trans hclean₁).symm.trans hbye)

theorem shutdownHangsUp_of_ends (hnothing : NothingBehind (s.consumed false reads))
    (htwice : ¬ EndedTwice (s.handleStream false reads).2) : ShutdownHangsUp s reads := by
  rintro pre f post s₁ b rfl htype hopen hmatches
  have hread := handleRead_shutdown s₁ b hmatches htype
  have hconsumed := consumed_append hopen (.ok f :: post)
  rw [consumed_cons_again hread] at hconsumed
  rcases post with _ | ⟨e | g, post⟩
  · trivial
  · by_contra hcode
    refine htwice ?_
    rw [handleStream_of_openAfter hopen, handleStream_cons_again hread, handleStream,
      handleRead_failed _ true hcode]
    refine ⟨rfl, ?_⟩
    obtain ⟨sent, heq⟩ := fenceSession_eq ({ s₁ with
      outcome := { s₁.outcome with frames := s₁.outcome.frames + 1 } } : Serving) .frameMalformed
      "frame read failed"
    rw [heq]
    rfl
  · refine hnothing pre f _ hconsumed (.inr htype) g ?_
    -- The frame behind the Shutdown is read, whatever the loop makes of it.
    rw [consumed]
    split
    · exact List.mem_cons_self
    · exact List.mem_singleton.mpr rfl

theorem handleStream_endsOnce_iff (hfenced : s.outcome.fenced = false)
    (hclean : s.outcome.cleanBye = false) :
    NothingBehind (s.consumed false reads) ∧ ¬ EndedTwice (s.handleStream false reads).2 ↔
      ShutdownHangsUp s reads :=
  ⟨fun h => shutdownHangsUp_of_ends h.1 h.2, fun h =>
    ⟨nothingBehind_consumed h, not_endedTwice_handleStream hfenced hclean h⟩⟩

/-! ## Sequence numbers -/

/-- No branch of the loop looks at the sequence number. -/
theorem handleRead_unnumbered (s : Serving) (cleanBye : Bool) (read : Except Status Frame) :
    s.handleRead cleanBye (read.map Frame.unnumbered) = s.handleRead cleanBye read := by
  rcases read with e | f
  · rfl
  · show s.handleFrame cleanBye f.unnumbered = s.handleFrame cleanBye f
    unfold handleFrame dispatch handleHeartbeat handleEvidence handleCompletion
    rfl

section

variable (reads : List (Except Status Frame)) (s : Serving) (reason : FenceReason) (detail : String)
  (cleanBye : Bool)

theorem handleStream_unnumbered :
    s.handleStream cleanBye (reads.map (Except.map Frame.unnumbered)) =
      s.handleStream cleanBye reads := by
  induction reads generalizing s cleanBye with
  | nil => rfl
  | cons read reads ih =>
    rw [List.map_cons, handleStream, handleStream, handleRead_unnumbered]
    rcases s.handleRead cleanBye read with ⟨next, s₁⟩
    cases next with
    | again cleanBye₁ => exact ih s₁ cleanBye₁
    | leave => rfl
    | stop => rfl

theorem consumed_initial : s.consumed cleanBye reads <+: reads := by
  induction reads generalizing s cleanBye with
  | nil => exact List.prefix_rfl
  | cons read reads ih =>
    rcases hread : s.handleRead cleanBye read with ⟨next, s₁⟩
    rw [consumed, hread]
    cases next with
    | again cleanBye₁ => exact (List.prefix_cons_inj read).mpr (ih s₁ cleanBye₁)
    | leave => exact ⟨reads, rfl⟩
    | stop => exact ⟨reads, rfl⟩

/-- The applied frames are among those that are read. -/
theorem applied_sublist :
    (s.applied cleanBye reads).Sublist (framesOf (s.consumed cleanBye reads)) := by
  induction reads generalizing s cleanBye with
  | nil => exact List.Sublist.refl _
  | cons read reads ih =>
    have hframes : ∀ rest, framesOf (read :: rest) = framesOf [read] ++ framesOf rest := by
      intro rest
      unfold framesOf
      rw [← List.filterMap_append, List.singleton_append]
    rcases hread : s.handleRead cleanBye read with ⟨next, s₁⟩
    rw [applied, consumed, hread]
    cases next with
    | again cleanBye₁ =>
      simp only [hframes (s₁.consumed _ _)]
      exact List.Sublist.append List.filter_sublist (ih s₁ cleanBye₁)
    | leave | stop => exact (List.append_nil _).symm ▸ List.filter_sublist

/-! ## Registration and report -/

theorem cleanBye_fenceSession :
    (s.fenceSession reason detail).outcome.cleanBye = s.outcome.cleanBye :=
  (works_fenceSession s reason detail).clean

end

theorem cleanBye_registerSession (s : Serving) (h : Hello) (worker next : WorkerId) :
    (s.registerSession h worker next).2.outcome.cleanBye = s.outcome.cleanBye := by
  obtain ⟨sent, heq⟩ := registerSession_snd s h worker next
  rw [heq]

theorem cleanBye_handleHello (s : Serving) (frame : Frame) :
    (s.handleHello frame).2.outcome.cleanBye = s.outcome.cleanBye := by
  unfold handleHello
  rcases decodeHello frame.payload with e | ⟨h, rest⟩
  · exact cleanBye_fenceSession s _ _
  simp only
  generalize hs₁ : ({ s with outcome := { s.outcome with
    epoch := ⟨h.epoch⟩, boot := ⟨h.boot⟩, label := h.label } } : Serving) = s₁
  have hclean : s₁.outcome.cleanBye = s.outcome.cleanBye := by rw [← hs₁]
  rw [← hclean]
  split_ifs
  · rw [cleanBye_fenceSession, hclean]
  · exact cleanBye_fenceSession _ _ _
  · exact cleanBye_fenceSession _ _ _
  · exact cleanBye_fenceSession _ _ _
  split
  · exact cleanBye_fenceSession _ _ _
  · exact cleanBye_registerSession _ _ _ _

theorem fenced_of_registered {written : Except Status Unit}
    (h : s.handleHello f = (.registered written, s')) :
    s'.outcome.fenced = s.outcome.fenced := by
  rcases handleHello_cases s f with ⟨s₁, heq, -⟩ | ⟨hello, worker, next, -, heq⟩
  · rw [heq] at h
    cases h
  · obtain ⟨sent, hregistered⟩ := registerSession_snd (s.introduced hello) hello worker next
    rw [← heq, h] at hregistered
    have hs' : s' = _ := hregistered
    rw [hs']
    rfl

/-- The report behind a stream keeps its verdict. -/
theorem endedTwice_serveStream (s : Serving) (reads : List (Except Status Frame)) :
    EndedTwice (s.serveStream reads) ↔ EndedTwice (s.handleStream false reads).2 := by
  unfold serveStream
  simp only
  rcases (s.handleStream false reads).1 with e | ⟨⟩
  · exact Iff.rfl
  · exact Iff.rfl

end Serving

namespace Coordinator

open Serving

/-! ## Sessions -/

/-- The state in which `serve_one` enters `handle_stream` behind the first frame, if it does. -/
def streaming (c : Coordinator) (first : Frame) : Option Serving :=
  if first.header.type ≠ .hello then none
  else
    match Serving.handleHello
      { coordinator := c, outcome := { detail := "session opened", frames := 1 } } first with
    | (.registered (.ok ()), s) => some s
    | _ => none

/-- The reads that a session performs. -/
def consumed (c : Coordinator) : List (Except Status Frame) → List (Except Status Frame)
  | [] => []
  | .error e :: _ => [.error e]
  | .ok first :: body => .ok first ::
    match c.streaming first with
    | none => []
    | some s => s.consumed false body

/-- The frames that a session applies. -/
def applied (c : Coordinator) : List (Except Status Frame) → List Frame
  | .ok first :: body =>
    match c.streaming first with
    | none => []
    | some s => s.applied false body
  | _ => []

variable {c : Coordinator} {first : Frame} {s : Serving}

theorem type_of_streaming (h : c.streaming first = some s) : first.header.type = .hello := by
  unfold streaming at h
  split_ifs at h with htype
  exact not_not.mp htype

theorem verdict_of_streaming (h : c.streaming first = some s) :
    s.outcome.fenced = false ∧ s.outcome.cleanBye = false := by
  unfold streaming at h
  split_ifs at h
  split at h
  case h_1 s₁ hhello =>
    cases h
    have hclean := cleanBye_handleHello
      { coordinator := c, outcome := { detail := "session opened", frames := 1 } } first
    rw [hhello] at hclean
    exact ⟨fenced_of_registered hhello, hclean⟩
  case h_2 => cases h

theorem serve_of_streaming (h : c.streaming first = some s) (body : List (Except Status Frame)) :
    c.serve (.ok first :: body) = s.serveStream body := by
  have htype := type_of_streaming h
  unfold streaming at h
  rw [if_neg (not_not.mpr htype)] at h
  split at h
  case h_1 s₁ hhello =>
    cases h
    show Serving.serveFrom _ first body = _
    unfold Serving.serveFrom
    simp only
    rw [if_neg (not_not.mpr htype)]
    split
    · rename_i heq
      cases hhello.symm.trans heq
    · rename_i heq
      cases hhello.symm.trans heq
    · rename_i heq
      cases hhello.symm.trans heq
      rfl
  case h_2 => cases h

/-- A session that does not come to its stream does not end cleanly. -/
theorem cleanBye_of_not_streaming (h : c.streaming first = none) (body : List (Except Status Frame)) :
    (c.serve (.ok first :: body)).outcome.cleanBye = false := by
  show (Serving.serveFrom _ first body).outcome.cleanBye = false
  unfold Serving.serveFrom
  simp only
  by_cases htype : first.header.type = .hello
  swap
  · rw [if_pos htype]
    exact cleanBye_fenceSession _ _ _
  rw [if_neg (not_not.mpr htype)]
  unfold streaming at h
  rw [if_neg (not_not.mpr htype)] at h
  have hclean := cleanBye_handleHello
    { coordinator := c, outcome := { detail := "session opened", frames := 0 + 1 } } first
  split
  · rename_i heq
    rw [heq] at hclean
    exact hclean
  · rename_i heq
    rw [heq] at hclean
    exact hclean
  · rename_i heq
    rw [show Serving.handleHello
      { coordinator := c, outcome := { detail := "session opened", frames := 1 } } first = _ from heq]
      at h
    cases h

/-- What follows a Shutdown frame that the open session takes is the end of the connection. -/
def ShutdownHangsUp (c : Coordinator) (reads : List (Except Status Frame)) : Prop :=
  ∀ first body s, reads = .ok first :: body → c.streaming first = some s → s.ShutdownHangsUp body

theorem nothingBehind_cons (hbye : first.header.type ≠ .bye)
    (hshutdown : first.header.type ≠ .shutdown) (reads : List (Except Status Frame)) :
    NothingBehind (.ok first :: reads) ↔ NothingBehind reads := by
  constructor
  · rintro h pre f post rfl htype
    exact h (.ok first :: pre) f post rfl htype
  · intro h pre f post heq htype
    cases pre with
    | nil =>
      obtain ⟨hf, -⟩ := List.cons.inj heq
      cases hf
      exact absurd htype (not_or.mpr ⟨hbye, hshutdown⟩)
    | cons read pre => exact h pre f post (List.cons.inj heq).2 htype

theorem nothingBehind_singleton (read : Except Status Frame) : NothingBehind [read] := by
  intro pre f post heq _ g hg
  cases pre with
  | nil =>
    rw [← (List.cons.inj heq).2] at hg
    cases hg
  | cons read' pre => exact absurd (List.cons.inj heq).2 (by simp)

/-- A session reads nothing behind a Bye or a Shutdown and does not end both cleanly and fenced,
exactly when the connection ends behind every Shutdown that the session takes. -/
theorem session_ends_once_iff (c : Coordinator) (reads : List (Except Status Frame)) :
    (NothingBehind (c.consumed reads) ∧ ¬ EndedTwice (c.serve reads)) ↔ c.ShutdownHangsUp reads := by
  rcases reads with _ | ⟨e | first, body⟩
  · refine ⟨fun _ first body s h => (by cases h), fun _ => ⟨?_, ?_⟩⟩
    · intro pre f post heq
      exact absurd heq (List.ne_nil_of_mem (List.mem_append_right pre List.mem_cons_self)).symm
    · rintro ⟨hclean, -⟩
      cases hclean
  · refine ⟨fun _ first body s h => (by cases h), fun _ => ⟨nothingBehind_singleton _, ?_⟩⟩
    rintro ⟨hclean, -⟩
    cases hclean
  rcases hstream : c.streaming first with _ | s
  · refine ⟨fun _ first' body' s h hs => ?_, fun _ => ⟨?_, ?_⟩⟩
    · cases h
      rw [hstream] at hs
      cases hs
    · rw [consumed, hstream]
      exact nothingBehind_singleton _
    · rintro ⟨hclean, -⟩
      rw [cleanBye_of_not_streaming hstream body] at hclean
      cases hclean
  · have htype := type_of_streaming hstream
    obtain ⟨hfenced, hclean⟩ := verdict_of_streaming hstream
    have hconsumed : c.consumed (.ok first :: body) = .ok first :: s.consumed false body := by
      rw [consumed, hstream]
    rw [hconsumed, nothingBehind_cons (by rw [htype]; decide) (by rw [htype]; decide),
      serve_of_streaming hstream, endedTwice_serveStream, handleStream_endsOnce_iff hfenced hclean]
    constructor
    · intro h first' body' s' heq hs'
      cases heq
      rw [hstream] at hs'
      cases hs'
      exact h
    · intro h
      exact h first body s rfl hstream

namespace Scenario

/-- A frame of the first worker without a payload. -/
def controlFrame (type : FrameType) : Frame where
  header := { type := type, epoch := ⟨1⟩, boot := ⟨1⟩, worker := ⟨1⟩ }

/-- A worker registers, announces a shutdown, brings a batch and says Hello once more. -/
def lingering : List (Except Status Frame) :=
  [.ok (helloFrame (hello 1 1)), .ok (controlFrame .shutdown),
    .ok (batchFrame ⟨1⟩ [Governor.Scenario.sample]), .ok (controlFrame .hello)]

end Scenario

open Scenario

/-- The batch behind the Shutdown is read and its sample accepted, and the session ends both cleanly
and fenced. -/
theorem read_behind_shutdown : ∃ c : Coordinator, create Scenario.config none = .ok c ∧
    (framesOf (c.consumed lingering)).map (·.header.type) =
      [.hello, .shutdown, .evidenceBatch, .hello] ∧
    (c.serve lingering).outcome.accepted = 1 ∧ EndedTwice (c.serve lingering) := by
  unfold EndedTwice
  decide +kernel

/-! ## Replayed and reordered frames -/

section

variable (c : Coordinator) (reads : List (Except Status Frame))

/-- A session does not look at the sequence numbers of its frames. -/
theorem serve_unnumbered : c.serve (reads.map (Except.map Frame.unnumbered)) = c.serve reads := by
  rcases reads with _ | ⟨e | first, body⟩
  · rfl
  · rfl
  · show Serving.serveFrom _ first.unnumbered (body.map _) = Serving.serveFrom _ first body
    unfold Serving.serveFrom Serving.serveStream
    simp only [handleStream_unnumbered]
    rfl

theorem consumed_initial : c.consumed reads <+: reads := by
  rcases reads with _ | ⟨e | first, body⟩
  · exact List.prefix_rfl
  · exact ⟨body, rfl⟩
  · rw [consumed]
    refine (List.prefix_cons_inj _).mpr ?_
    rcases c.streaming first with _ | s
    · exact List.nil_prefix
    · exact Serving.consumed_initial body s false

theorem applied_sublist : (c.applied reads).Sublist (framesOf (c.consumed reads)) := by
  rcases reads with _ | ⟨e | first, body⟩
  · exact List.nil_sublist _
  · exact List.nil_sublist _
  · rw [applied, consumed]
    rcases c.streaming first with _ | s
    · exact List.nil_sublist _
    · exact (Serving.applied_sublist body s false).trans (List.sublist_cons_self first _)

end

/-- Whatever the sequence numbers are, the session goes the same way.  It reads an initial part of what
is sent, and when the numbers of the frames that it reads increase, the applied frames increase, and each frame that is read is above all those before it. -/
theorem applied_sequences_ascend (c : Coordinator) (reads : List (Except Status Frame)) :
    c.serve (reads.map (Except.map Frame.unnumbered)) = c.serve reads ∧ c.consumed reads <+: reads ∧
    (Ascending (framesOf (c.consumed reads)) → Ascending (c.applied reads) ∧
      ∀ pre f post, c.consumed reads = pre ++ .ok f :: post →
        ∀ g ∈ framesOf pre, g.header.sequence < f.header.sequence) := by
  refine ⟨serve_unnumbered c reads, consumed_initial c reads,
    fun hread => ⟨hread.sublist (applied_sublist c reads), ?_⟩⟩
  intro pre f post heq g hg
  rw [heq] at hread
  unfold Ascending framesOf at hread
  rw [List.filterMap_append, List.pairwise_append] at hread
  exact hread.2.2 g hg f (List.mem_filterMap.mpr ⟨.ok f, List.mem_cons_self, rfl⟩)

namespace Scenario

/-- A session that brings one batch again and again, under the given sequence numbers. -/
def numbered (sequences : List UInt64) : List (Except Status Frame) :=
  .ok (helloFrame (hello 1 1)) :: sequences.map fun n =>
    let f := batchFrame ⟨1⟩ [Governor.Scenario.sample]
    .ok { f with header := { f.header with sequence := n } }

end Scenario

/-- A batch that is replayed under its old sequence number is applied again, and nothing is fenced. -/
theorem replayed_batch_applied : ∃ c : Coordinator, create Scenario.config none = .ok c ∧
    (c.applied (numbered [1, 1])).map (·.header.sequence) = [1, 1] ∧
    (c.serve (numbered [1, 1])).outcome.fenced = false ∧
    (c.serve (numbered [1, 1])).outcome.accepted = 2 := by
  decide +kernel

/-- With increasing numbers both batches are applied in their order. -/
theorem applied_sequences_scenario : ∃ c : Coordinator, create Scenario.config none = .ok c ∧
    Ascending (framesOf (c.consumed (numbered [1, 2]))) ∧
    (c.applied (numbered [1, 2])).map (·.header.sequence) = [1, 2] ∧
    Ascending (c.applied (numbered [1, 2])) := by
  obtain ⟨c, hc, hall, happlied⟩ : ∃ c, create Scenario.config none = .ok c ∧
    Ascending (framesOf (c.consumed (numbered [1, 2]))) ∧
    (c.applied (numbered [1, 2])).map (·.header.sequence) = [1, 2] := by decide +kernel
  exact ⟨c, hc, hall, happlied, ((applied_sequences_ascend c _).2.2 hall).1⟩

end Coordinator

end EFG
