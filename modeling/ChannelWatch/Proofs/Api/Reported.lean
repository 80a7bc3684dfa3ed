import ChannelWatch.Api.Response
import ChannelWatch.Proofs.Report
import Mathlib.Logic.Function.Iterate

/-!
# Answers that report a fault

An answer that reports a fault says which fault it was: its body is read back as a report with the code, the words and the details of
the fault (`fault_read_back`). The details are those of the outermost fault (`Fault.Details`); a cause only lengthens the words, by one
beginning for each fault that it lies behind (`message_iterate`).
-/

namespace ChannelWatch

namespace Fault

/-- The numbers that a fault reports have their widths: a status has sixteen bits, a count of sources sixty-four. -/
def InRange : Fault → Prop
  | httpStatus status _ => status < 2 ^ 16
  | partialContent failed => failed < 2 ^ 64
  | _ => True

/-- The details that a fault has, by the kind of the outermost fault: the status and the URL of an answer, the number of sources that
failed, the key of a setting, and otherwise none. -/
inductive Details : Fault → Option Json → Prop
  | httpStatus (status : Nat) (url : String) :
      Details (.httpStatus status url) (some (.record [("status", .nat status), ("url", .text url)]))
  | partialContent (failed : Nat) : Details (.partialContent failed) (some (.record [("failed_sources", .nat failed)]))
  | key (message key : String) : Details (.config message (some key)) (some (.record [("key", .text key)]))
  | keyless (message : String) : Details (.config message none) none
  | network (fault : NetworkFault) : Details (.network fault) none
  | decode (text : String) : Details (.decode text) none
  | io (fault : IoFault) : Details (.io fault) none
  | emptyJob : Details .emptyJob none
  | taskFailed (text : String) : Details (.taskFailed text) none
  | noContent : Details .noContent none
  | noContentBecause (cause : Fault) : Details (.noContentBecause cause) none

/-- A fault is reported with its details. -/
theorem details_detailsOf (f : Fault) : f.Details (ErrorReport.detailsOf f) := by
  cases f with
  | config message key =>
    cases key with
    | none => exact .keyless message
    | some key => exact .key message key
  | network fault => exact .network fault
  | httpStatus status url => exact .httpStatus status url
  | decode text => exact .decode text
  | io fault => exact .io fault
  | emptyJob => exact .emptyJob
  | taskFailed text => exact .taskFailed text
  | noContent => exact .noContent
  | noContentBecause cause => exact .noContentBecause cause
  | partialContent failed => exact .partialContent failed

/-- The details of a fault in range are read back as they are. -/
theorem Details.survives {f : Fault} {details : Json} (hf : f.InRange) (h : f.Details (some details)) :
    ErrorReport.Survives details := by
  have htext : ∀ s depth, (Json.text s).keep? depth = some (.text s) := fun s _ => Json.keep?_text s
  have hnat : ∀ n < 2 ^ 64, ∀ depth, (Json.nat n).keep? depth = some (.nat n) := fun n hn _ => Json.keep?_nat hn
  cases h with
  | httpStatus status url =>
    have hstatus : status < 2 ^ 64 := Nat.lt_trans hf (by decide)
    refine ErrorReport.survives_record (by simp) ?_ ?_
    · simp only [List.forall_mem_cons]
      exact ⟨.number .empty, .string _, List.forall_mem_nil _⟩
    · simp only [List.forall_mem_cons]
      exact ⟨hnat status hstatus, htext url, List.forall_mem_nil _⟩
  | partialContent failed =>
    exact ErrorReport.survives_record (List.nodup_singleton _) (List.forall_mem_singleton.mpr (.number .empty))
      (List.forall_mem_singleton.mpr (hnat failed hf))
  | key message key =>
    exact ErrorReport.survives_record (List.nodup_singleton _) (List.forall_mem_singleton.mpr (.string _))
      (List.forall_mem_singleton.mpr (htext key))

/-- The words of a fault behind which others lie are those of the innermost one, after a beginning for each fault around it. -/
theorem message_iterate (depth : Nat) (inner : Fault) :
    (noContentBecause^[depth] inner).message = String.join (List.replicate depth "no content to show: ") ++ inner.message := by
  induction depth with
  | zero => exact String.empty_append.symm
  | succ depth ih =>
    have hone : ∀ cause : Fault, (noContentBecause cause).message = "no content to show: " ++ cause.message := fun _ => rfl
    rw [Function.iterate_succ_apply', hone, ih, List.replicate_succ, String.join_cons, String.append_assoc]

/-- A fault is reported with a status that answers can have. -/
theorem status_bounds (f : Fault) : 100 ≤ f.status ∧ f.status ≤ 999 := by
  cases f <;> simp [status]

end Fault

namespace Api

/-- The bytes of a body as they are sent. -/
def Body.sent : Body → List UInt8
  | empty => []
  | json j => Utf8.ofString j.render
  | text s => Utf8.ofString s
  | bytes b => b

/-- What an answer says of the fault that it reports. -/
structure Response.Reports (r : Response) (f : Fault) : Prop where
  /-- It has the status of the fault, and this is one that answers can have. -/
  status : r.status = f.status ∧ 100 ≤ r.status ∧ r.status ≤ 999
  contentType : r.contentType = some "application/json"
  /-- Its body is a text in JSON and is read back as a report of the code, the words and the details of the fault. -/
  body : ∃ details text, f.Details details ∧ r.body.sent = Utf8.ofString text ∧
    Json.read? text = some (ErrorReport.body f.code f.message details) ∧
    ErrorReport.read? r.body.sent = some ⟨f.code, f.message, details⟩
  /-- Where other faults lie behind the fault, its words are those of the innermost one after a beginning for each around it. -/
  words : ∀ depth inner, f = Fault.noContentBecause^[depth] inner →
    f.message = String.join (List.replicate depth "no content to show: ") ++ inner.message
  /-- A cause changes nothing but the words: the status, the code and the details are those of the same fault without a cause. -/
  cause : ∀ cause, f = .noContentBecause cause → r.status = (Response.fault .noContent).status ∧
    ∃ bare, ErrorReport.read? (Response.fault .noContent).body.sent = some bare ∧
      ErrorReport.read? r.body.sent = some { bare with message := f.message }

variable {f : Fault}

theorem survives_ofFault (h : f.InRange) : ∀ details ∈ (ErrorReport.ofFault f).details, ErrorReport.Survives details := by
  intro details hdetails
  have hf : f.Details (ErrorReport.ofFault f).details := f.details_detailsOf
  rw [Option.mem_def.mp hdetails] at hf
  exact hf.survives h

/-- The body of an answer that reports a fault is read back as the report. -/
theorem read?_fault (h : f.InRange) : ErrorReport.read? (Response.fault f).body.sent = some (.ofFault f) :=
  ErrorReport.read?_written (survives_ofFault h)

/-- An answer that reports a fault says which fault it was. -/
theorem fault_read_back (h : f.InRange) : (Response.fault f).Reports f := by
  refine ⟨⟨rfl, f.status_bounds⟩, rfl, ?_, ?_, ?_⟩
  · have hjson := Json.read?_render (ErrorReport.isSound_toJson (survives_ofFault h))
    exact ⟨ErrorReport.detailsOf f, (ErrorReport.ofFault f).toJson.render, f.details_detailsOf, rfl,
      hjson.trans (congrArg some (ErrorReport.toJson_eq _)), read?_fault h⟩
  · rintro depth inner rfl
    exact Fault.message_iterate depth inner
  · rintro cause rfl
    exact ⟨rfl, _, read?_fault trivial, read?_fault h⟩

/-- A fault with the largest status and a URL whose characters are escaped or take several bytes. -/
def awkward : Fault :=
  .httpStatus 65535 "https://é/\n\x22😀"

/-- The fault is read back, and so is a lack of content that it has caused twice over. -/
theorem fault_read_back_awkward : awkward.InRange ∧ (Fault.noContentBecause^[2] awkward).InRange ∧
    ErrorReport.read? (Response.fault awkward).body.sent =
      some ⟨"upstream_status", "unexpected HTTP status 65535 from https://é/\n\x22😀",
        some (.record [("status", .nat 65535), ("url", .text "https://é/\n\x22😀")])⟩ ∧
    ErrorReport.read? (Response.fault (Fault.noContentBecause^[2] awkward)).body.sent =
      some ⟨"no_content", "no content to show: no content to show: unexpected HTTP status 65535 from https://é/\n\x22😀", none⟩ := by
  have hrange : awkward.InRange := by
    show 65535 < 2 ^ 16
    decide
  obtain ⟨_, _, hdetails, -, -, hread⟩ := (fault_read_back hrange).body
  obtain ⟨_, _, hnone, -, -, hnested⟩ := (fault_read_back (f := Fault.noContentBecause^[2] awkward) trivial).body
  cases hdetails
  cases hnone
  exact ⟨hrange, trivial, hread, hnested⟩

end Api

end ChannelWatch
