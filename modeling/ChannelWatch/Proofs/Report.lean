import ChannelWatch.Proofs.Json.Printer
import ChannelWatch.Proofs.Json.Record
import ChannelWatch.Proofs.Text.Utf8
import ChannelWatch.Report

/-!
# Reports are read back

Statements about `ErrorReport`: what a report looks like as JSON (`toJson_eq`), and that the bytes in which it is written are read
as the same report, whatever its code and message say (`read?_written`). Details survive this if they can be written and are kept as
they are (`Survives`), which records of kept values with different keys do (`survives_record`).
-/

namespace ChannelWatch

namespace Json

/-! ## Values that are kept as they are -/

variable {depth : Nat}

theorem keep?_text (s : String) : (text s).keep? depth = some (text s) := by
  unfold text
  rw [keep?]
  rfl

theorem keep?_nat {n : Nat} (h : n < 2 ^ 64) : (nat n).keep? depth = some (nat n) := by
  have hword : (⟨false, n, []⟩ : JsonNumber).isWord = true := by
    simp only [JsonNumber.isWord, List.isEmpty_nil, Bool.true_and, Bool.false_eq_true, if_false, decide_eq_true_eq]
    exact h
  rw [nat, keep?, JsonNumber.kept?, if_pos hword]
  rfl

/-- Members are kept if their values are and no key comes twice. -/
theorem keepMembers?_record {members : List (String × Json)} (hkeys : (members.map Prod.fst).Nodup)
    (h : ∀ m ∈ members, m.2.keep? depth = some m.2) :
    keepMembers? depth (members.map fun m => (some m.1, m.2)) = some (members.map fun m => (some m.1, m.2)) := by
  induction members with
  | nil => rw [List.map_nil, keepMembers?]
  | cons m members ih =>
    rw [List.map_cons, List.nodup_cons] at hkeys
    obtain ⟨hm, hmembers⟩ := List.forall_mem_cons.mp h
    have hnew : ((members.map fun m => ((some m.1 : JsonText), m.2)).any fun n => n.1 = some m.1) = false := by
      simp only [List.any_map, List.any_eq_false, Function.comp_apply, decide_eq_true_eq, Option.some.injEq]
      intro n hn heq
      exact hkeys.1 (heq ▸ List.mem_map_of_mem hn)
    rw [List.map_cons, keepMembers?, hm, ih hkeys.2 hmembers]
    simp only [Option.bind_eq_bind, Option.bind_some, hnew, Bool.false_eq_true, if_false]

/-- A record is kept if its values are and no key comes twice. -/
theorem keep?_record {members : List (String × Json)} (hkeys : (members.map Prod.fst).Nodup)
    (h : ∀ m ∈ members, m.2.keep? depth = some m.2) : (record members).keep? (depth + 1) = some (record members) := by
  rw [record, keep?, keepMembers?_record hkeys h]
  rfl

end Json

namespace ErrorReport

/-! ## The JSON of a report -/

/-- The JSON in which a code, a message and details are reported: an object with these members and no others, and without a member
for details where there are none. -/
def body (code message : String) : Option Json → Json
  | some details => .record [("error", .record [("code", .text code), ("message", .text message), ("details", details)])]
  | none => .record [("error", .record [("code", .text code), ("message", .text message)])]

/-- A report is written with its code, its message and its details. -/
theorem toJson_eq (r : ErrorReport) : r.toJson = body r.code r.message r.details := by
  obtain ⟨code, message, details⟩ := r
  cases details <;> rfl

/-- Details that are read back as they are: they can be written, and they are kept. -/
structure Survives (details : Json) : Prop where
  sound : details.IsSound
  kept : readDetails? (some details) = some (some details)

/-- A record survives if its values can be written and are kept, and no key comes twice. -/
theorem survives_record {members : List (String × Json)} (hkeys : (members.map Prod.fst).Nodup)
    (hsound : ∀ m ∈ members, m.2.IsSound) (hkept : ∀ m ∈ members, ∀ depth, m.2.keep? depth = some m.2) :
    Survives (.record members) := by
  refine ⟨.record hsound, ?_⟩
  have hrecord : (Json.record members).keep? detailsDepth = some (.record members) :=
    Json.keep?_record hkeys fun m hm => hkept m hm _
  have hread : readDetails? (some (.record members)) = ((Json.record members).keep? detailsDepth).map some := rfl
  rw [hread, hrecord, Option.map_some]

variable {r : ErrorReport}

/-- A report can be written if its details can. -/
theorem isSound_toJson (h : ∀ details ∈ r.details, Survives details) : r.toJson.IsSound := by
  obtain ⟨code, message, details⟩ := r
  rw [toJson_eq]
  cases details with
  | none =>
    refine .record (List.forall_mem_singleton.mpr (.record ?_))
    simp only [List.forall_mem_cons]
    exact ⟨.string _, .string _, List.forall_mem_nil _⟩
  | some details =>
    refine .record (List.forall_mem_singleton.mpr (.record ?_))
    simp only [List.forall_mem_cons]
    exact ⟨.string _, .string _, (h details rfl).sound, List.forall_mem_nil _⟩

/-- The error of a report is read from its members. -/
theorem readError?_record {code message : String} {members : List (String × Json)} {details : Option Json}
    (hfields : (Json.record members).fields? ["code", "message", "details"] =
      some [some (.text code), some (.text message), details]) :
    readError? (.record members) = (readDetails? details).map fun d => ⟨code, message, d⟩ := by
  rw [readError?, hfields]
  rfl

/-- A report is read back from its JSON. -/
theorem ofJson?_toJson (h : ∀ details ∈ r.details, Survives details) : ofJson? r.toJson = some r := by
  obtain ⟨code, message, details⟩ := r
  have hreport : ∀ error : Json, ofJson? (.record [("error", error)]) = readError? error := by
    intro error
    have hfields : (Json.record [("error", error)]).fields? ["error"] = some [some error] :=
      Json.fields?_record_keys rfl (by decide)
    rw [ofJson?, hfields]
    rfl
  rw [toJson_eq]
  cases details with
  | none =>
    have hfields : (Json.record [("code", .text code), ("message", .text message)]).fields? ["code", "message", "details"] =
        some [some (.text code), some (.text message), none] := by
      simp [Json.fields?_record, Json.member?]
    rw [body, hreport, readError?_record hfields]
    rfl
  | some details =>
    have hfields : (Json.record [("code", .text code), ("message", .text message), ("details", details)]).fields?
        ["code", "message", "details"] = some [some (.text code), some (.text message), some details] :=
      Json.fields?_record_keys rfl (by decide)
    rw [body, hreport, readError?_record hfields, (h details rfl).kept]
    rfl

/-! ## The bytes of a report -/

/-- The report that some bytes say. -/
def read? (bytes : List UInt8) : Option ErrorReport := do
  let text ← Utf8.decode? bytes
  let j ← Json.read? (String.ofList text)
  ofJson? j

/-- A report is read back from the bytes in which it is written. -/
theorem read?_written (h : ∀ details ∈ r.details, Survives details) : read? (Utf8.ofString r.toJson.render) = some r := by
  have htext : Utf8.decode? (Utf8.ofString r.toJson.render) = some r.toJson.render.toList :=
    Utf8.decode?_eq_some_iff.mpr rfl
  rw [read?, htext, Option.bind_eq_bind, Option.bind_some, String.ofList_toList, Json.read?_render (isSound_toJson h),
    Option.bind_eq_bind, Option.bind_some]
  exact ofJson?_toJson h

end ErrorReport

end ChannelWatch
