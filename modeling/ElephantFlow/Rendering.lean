/-
# The explanation as JSON

`append_json_string` of `text.cpp` and `render_json` of `explain.cpp`.  The names that are printed
for enumerations, the authority vector and the prose lines are texts that other functions supply
(`Wording`); they are quoted, so the document is well formed whatever they say.
-/
import ElephantFlow.Governor
import ElephantFlow.JsonText

namespace EFG

open ByteCodec Json

/-! ## Quoting -/

/-- `hex_digit`. -/
def hexDigit (value : UInt8) : UInt8 := if value < 10 then 48 + value else 97 + (value - 10)

/-- The switch of `append_json_string`. -/
def escapeByte (c : UInt8) : Bytes :=
  if c = 34 then [92, 34]
  else if c = 92 then [92, 92]
  else if c = 8 then [92, 98]
  else if c = 12 then [92, 102]
  else if c = 10 then [92, 110]
  else if c = 13 then [92, 114]
  else if c = 9 then [92, 116]
  else if c < 32 then [92, 117, 48, 48, hexDigit (c >>> 4 &&& 15), hexDigit (c &&& 15)]
  else [c]

/-- `append_json_string`. -/
def appendJsonString (out text : Bytes) : Bytes := out ++ 34 :: text.flatMap escapeByte ++ [34]

/-- What holds of every number below a bound holds of the bytes below it. -/
theorem forall_byte_lt {P : UInt8 → Prop} {m : ℕ} (h : ∀ n < m, P (UInt8.ofNat n)) {c : UInt8}
    (hc : c.toNat < m) : P c := by
  have hP := h c.toNat hc
  rwa [UInt8.ofNat_toNat] at hP

/-- The escape of a control byte stands for that byte. -/
theorem unicodeEscape_hexDigit {c : UInt8} (h : c < 32) :
    unicodeEscape 48 48 (hexDigit (c >>> 4 &&& 15)) (hexDigit (c &&& 15)) = some [c] :=
  forall_byte_lt (P := fun c =>
    unicodeEscape 48 48 (hexDigit (c >>> 4 &&& 15)) (hexDigit (c &&& 15)) = some [c])
    (m := 32) (by decide) (UInt8.lt_iff_toNat_lt.mp h)

/-- No control byte is written. -/
theorem le_of_mem_escapeByte {c x : UInt8} (h : x ∈ escapeByte c) : 32 ≤ x := by
  have hall := forall_byte_lt (P := fun c => (escapeByte c).all (32 ≤ ·)) (m := 256)
    (by decide +kernel) c.toNat_lt
  exact of_decide_eq_true (List.all_eq_true.mp hall x h)

theorem interior_escapeByte (c : UInt8) : Interior (escapeByte c) := by
  unfold escapeByte
  split_ifs with hquote hslash _ _ _ _ _ hcontrol
  iterate 7 exact .short rfl .nil
  · exact .unicode (unicodeEscape_hexDigit hcontrol) .nil
  · exact .plain ⟨UInt8.not_lt.mp hcontrol, hquote, hslash⟩ .nil

theorem unescape_escapeByte (c : UInt8) (rest : Bytes) :
    unescape (escapeByte c ++ rest) = (unescape rest).map (c :: ·) := by
  unfold escapeByte
  split_ifs with hquote hslash _ _ _ _ _ hcontrol
  iterate 7
    subst c
    rfl
  · show (unicodeEscape _ _ _ _).bind _ = _
    rw [unicodeEscape_hexDigit hcontrol]
    rfl
  · exact unescape_cons_of_plain ⟨UInt8.not_lt.mp hcontrol, hquote, hslash⟩ rest

section Text

variable (text : Bytes)

theorem interior_flatMap_escapeByte : Interior (text.flatMap escapeByte) := by
  induction text with
  | nil => exact .nil
  | cons c text ih => exact (interior_escapeByte c).append ih

theorem unescape_flatMap_escapeByte : unescape (text.flatMap escapeByte) = some text := by
  induction text with
  | nil => rfl
  | cons c text ih =>
    rw [List.flatMap_cons, unescape_escapeByte, ih]
    rfl

end Text

/-! ## Layout -/

/-- A truth value. -/
def flag (b : Bool) : Bytes := literal (if b then "true" else "false")

/-- `append_u64` into a text of its own. -/
def number (value : UInt64) : Bytes := appendU64 [] value

/-- `append_json_string` into a text of its own. -/
def quoted (text : Bytes) : Bytes := appendJsonString [] text

/-- A value behind its name in quotes, a colon and a blank. -/
def field (before : String) (f : String × Bytes) : Bytes :=
  literal before ++ (34 :: literal f.1 ++ [34]) ++ 58 :: 32 :: f.2

/-- An object: what stands before the first field, before each other field and before the end. -/
def object (first before close : String) : List (String × Bytes) → Bytes
  | [] => 123 :: literal close ++ [125]
  | f :: fields =>
    123 :: (List.intercalate [44] (field first f :: fields.map (field before)) ++ literal close) ++
      [125]

/-- An array: what stands before each element and, if there is one, before the end. -/
def array (before close : String) (items : List Bytes) : Bytes :=
  if items = [] then [91, 93]
  else 91 :: (List.intercalate [44] (items.map (literal before ++ ·)) ++ literal close) ++ [93]

/-- An object with a field on each line, inside the document. -/
def block (fields : List (String × Bytes)) : Bytes := object "\n    " "\n    " "\n  " fields

/-- An array of objects, each on a line of its own. -/
def rows (items : List (List (String × Bytes))) : Bytes :=
  array "\n    " "\n  " (items.map (object "" " " ""))

/-! ## The document -/

/-- `Explanation` with the field that is set in every answer of `explain`. -/
structure ExplanationView extends Governor.Explanation where
  found : Bool := true

/-- The texts and the digest that `render_json` has from other functions. -/
structure Wording where
  elephantState : ElephantState → Bytes
  authorityLevel : AuthorityLevel → Bytes
  serviceClass : ServiceClass → Bytes
  protectionState : ProtectionState → Bytes
  thresholdKind : ThresholdKind → Bytes
  tri : Tri → Bytes
  intentKind : IntentKind → Bytes
  intentState : IntentState → Bytes
  suppressReason : SuppressReason → Bytes
  reasonNames : ReasonCode → List Bytes
  renderAuthorityVector : AuthorityVector → Bytes
  /-- The kinds and texts of the lines, and whether lines were left out. -/
  buildExplanationLines : ExplanationView → List (Bytes × Bytes) × Bool
  digest : ExplanationView → UInt64

section Document

variable (w : Wording)

/-- The member `measurements`. -/
def measurementFields (m : FlowMeasurements) : List (String × Bytes) :=
  [("duration_ticks", number m.durationTicks),
   ("cumulative_bytes", number m.cumulativeBytes),
   ("sustained_rate_per_kilotick", number m.sustainedRate),
   ("peak_window_rate_per_kilotick", number m.peakWindowRate),
   ("window_count", number m.windowCount),
   ("dropped_windows", number m.droppedWindows),
   ("evidence_present", flag m.evidencePresent),
   ("evidence_contiguous", flag m.evidenceContiguous),
   ("gap_detected", flag m.gapDetected),
   ("service_class", quoted (w.serviceClass m.serviceClass)),
   ("priority_known", flag m.priority.known),
   ("priority", number m.priority.level.toUInt64),
   ("protection", quoted (w.protectionState m.protection)),
   ("reservation", number m.reservation.value),
   ("capacity_known", flag m.capacityKnown),
   ("binding_resource", number m.bindingResource.value),
   ("resource_capacity_per_kilotick", number m.resourceCapacity),
   ("resource_reserved_per_kilotick", number m.resourceReserved),
   ("resource_available_per_kilotick", number m.resourceAvailable),
   ("share_of_capacity_bp", number m.shareOfCapacity.toUInt64),
   ("share_of_available_bp", number m.shareOfAvailable.toUInt64)]

/-- An element of `thresholds`. -/
def thresholdFields (entry : ThresholdTraceEntry) : List (String × Bytes) :=
  [("node", number entry.nodeIndex.toUInt64),
   ("kind", quoted (w.thresholdKind entry.kind)),
   ("threshold", number entry.thresholdValue),
   ("observed_defined", flag entry.observedDefined),
   ("observed", number entry.observedValue),
   ("result", quoted (w.tri entry.result))]

/-- The member `impact`. -/
def impactFields (impact : ImpactAssessment) : List (String × Bytes) :=
  [("severity_bp", number impact.severity.toUInt64),
   ("contention_pressure_bp", number impact.contentionPressure.toUInt64),
   ("rate_pressure_bp", number impact.ratePressure.toUInt64),
   ("competing_flows", number impact.competingFlows.toUInt64),
   ("competing_elephants", number impact.competingElephants.toUInt64),
   ("excess_rate", number impact.excessRate),
   ("excess_over_guarantee", number impact.excessOverGuarantee),
   ("protected_obligation_conflict", flag impact.protectedObligationConflict)]

/-- An element of `intents`. -/
def intentFields (intent : GovernanceIntent) : List (String × Bytes) :=
  [("kind", quoted (w.intentKind intent.kind)),
   ("state", quoted (w.intentState intent.state)),
   ("suppressed", quoted (w.suppressReason intent.suppressed)),
   ("rate_reduction_bp", number intent.granted.rateReductionBp.toUInt64),
   ("targets", number intent.granted.targets.toUInt64),
   ("window_begin", number intent.window.beginAt),
   ("window_end", number intent.window.endAt)]

/-- An element of `lines`. -/
def lineFields (line : Bytes × Bytes) : List (String × Bytes) :=
  [("kind", quoted line.1), ("text", quoted line.2)]

/-- The members of the document. -/
def documentFields (e : ExplanationView) : List (String × Bytes) :=
  let built := w.buildExplanationLines e
  [("found", flag e.found),
   ("flow", number e.flow.value),
   ("flow_generation", number e.flowGeneration.value),
   ("state", quoted (w.elephantState e.state)),
   ("authority", quoted (w.authorityLevel e.authority)),
   ("reasons", array "" "" ((w.reasonNames e.reasons).map (quoted))),
   ("measurements", block (measurementFields w e.measurements)),
   ("thresholds", rows (e.trace.map (thresholdFields w))),
   ("impact", block (impactFields e.impact)),
   ("authority_vector", quoted (w.renderAuthorityVector e.authorityVector)),
   ("history_digest", number e.historyDigest),
   ("history_folded", number e.historyFolded),
   ("intents", rows (e.intents.map (intentFields w))),
   ("lines", rows (built.1.map lineFields)),
   ("truncated", flag built.2),
   ("explanation_digest", number (w.digest e))]

/-- `render_json`. -/
def renderJson (e : ExplanationView) : Bytes :=
  object "\n  " "\n  " "\n" (documentFields w e) ++ [10]

end Document

/-! ## Well-formedness -/

@[simp] theorem derives_flag (b : Bool) : Derives .element (flag b) := .bool b

@[simp] theorem derives_number (value : UInt64) : Derives .element (number value) := by
  obtain ⟨printed, heq, hne, -, hdigits, -, hhead⟩ := appendU64_spec [] value
  rw [number, heq]
  exact .number ⟨hne, hdigits, fun h => (hhead h).2⟩

@[simp] theorem derives_quoted (text : Bytes) : Derives .element (quoted text) :=
  .string ⟨_, rfl, interior_flatMap_escapeByte text⟩

/-- The names of the fields need no escapes. -/
def named (fields : List (String × Bytes)) : Bool := fields.all fun f => (literal f.1).all Plain

theorem derives_field {before : String} {f : String × Bytes} {ws : Bytes}
    (hbefore : Blank (literal before)) (hname : (literal f.1).all Plain)
    (hvalue : Derives .element f.2) (hws : Blank ws) : Derives .member (field before f ++ ws) := by
  have hname : IsString (34 :: literal f.1 ++ [34]) := ⟨_, rfl, interior_of_plain hname⟩
  have hvalue : Derives .element ([32] ++ f.2 ++ ws) := .padded (by decide) hvalue hws
  simpa [field] using Derives.member hbefore hname blank_nil hvalue

theorem derives_object {first before close : String} {fields : List (String × Bytes)}
    (hnames : named fields = true) (hvalues : ∀ f ∈ fields, Derives .element f.2)
    (hfirst : Blank (literal first) := by decide) (hbefore : Blank (literal before) := by decide)
    (hclose : Blank (literal close) := by decide) :
    Derives .element (object first before close fields) := by
  rcases fields with _ | ⟨f, fields⟩
  · exact .emptyObject hclose
  have hnames := List.all_eq_true.mp hnames
  rw [List.forall_mem_cons] at hnames hvalues
  refine .object (derives_intercalate (List.cons_ne_nil _ _) hclose ?_)
  rw [List.forall_mem_cons, List.forall_mem_map]
  exact ⟨fun _ hws => derives_field hfirst hnames.1 hvalues.1 hws,
    fun f' hf' _ hws => derives_field hbefore (hnames.2 f' hf') (hvalues.2 f' hf') hws⟩

theorem derives_array {before close : String} {items : List Bytes}
    (h : ∀ item ∈ items, Derives .element item) (hbefore : Blank (literal before) := by decide)
    (hclose : Blank (literal close) := by decide) : Derives .element (array before close items) := by
  unfold array
  split_ifs with hitems
  · exact .emptyArray blank_nil
  refine .array (derives_intercalate (mt List.map_eq_nil_iff.mp hitems) hclose ?_)
  rw [List.forall_mem_map]
  exact fun item hitem _ hws => .padded hbefore (h item hitem) hws

theorem derives_rows {α : Type} {fields : α → List (String × Bytes)} {xs : List α}
    (hnames : ∀ x, named (fields x) = true) (hvalues : ∀ x, ∀ f ∈ fields x, Derives .element f.2) :
    Derives .element (rows (xs.map fields)) := by
  refine derives_array ?_
  rw [List.forall_mem_map, List.forall_mem_map]
  exact fun x _ => derives_object (hnames x) (hvalues x)

/-- The names are fixed texts, and each value is of a kind that is derived. -/
theorem derives_renderJson (w : Wording) (e : ExplanationView) :
    Derives .element (renderJson w e) := by
  have hreasons : Derives .element (array "" "" ((w.reasonNames e.reasons).map quoted)) := by
    refine derives_array ?_
    rw [List.forall_mem_map]
    exact fun name _ => derives_quoted name
  have hmeasurements : Derives .element (block (measurementFields w e.measurements)) :=
    derives_object (by simp only [named, measurementFields, List.all_cons]; decide)
      (by simp [measurementFields])
  have htrace : Derives .element (rows (e.trace.map (thresholdFields w))) :=
    derives_rows (fun _ => by simp only [named, thresholdFields, List.all_cons]; decide)
      (by simp [thresholdFields])
  have himpact : Derives .element (block (impactFields e.impact)) :=
    derives_object (by simp only [named, impactFields, List.all_cons]; decide)
      (by simp [impactFields])
  have hintents : Derives .element (rows (e.intents.map (intentFields w))) :=
    derives_rows (fun _ => by simp only [named, intentFields, List.all_cons]; decide)
      (by simp [intentFields])
  have hlines : Derives .element (rows ((w.buildExplanationLines e).1.map lineFields)) :=
    derives_rows (fun _ => by simp only [named, lineFields, List.all_cons]; decide) (by simp [lineFields])
  have hdocument : Derives .element (object "\n  " "\n  " "\n" (documentFields w e)) :=
    derives_object (by simp only [named, documentFields, List.all_cons]; decide)
      (by simp [documentFields, *])
  show Derives .element ([] ++ object "\n  " "\n  " "\n" (documentFields w e) ++ [10])
  exact .padded blank_nil hdocument (by decide)

/-- The quoted text is a literal without raw control bytes and with escapes only for quotes and
backslashes, which reads back as the text, and `render_json` writes a JSON document whatever the
explanation is. -/
theorem json_lossless_and_well_formed :
    (∀ out text : Bytes, ∃ interior, appendJsonString out text = out ++ 34 :: interior ++ [34] ∧
      (∀ c ∈ interior, 32 ≤ c) ∧ Interior interior ∧ unescape interior = some text) ∧
    ∀ (w : Wording) (e : ExplanationView), Derives .element (renderJson w e) := by
  refine ⟨fun out text => ⟨text.flatMap escapeByte, rfl, fun x hx => ?_,
    interior_flatMap_escapeByte text, unescape_flatMap_escapeByte text⟩, derives_renderJson⟩
  obtain ⟨c, -, hc⟩ := List.mem_flatMap.mp hx
  exact le_of_mem_escapeByte hc

end EFG
