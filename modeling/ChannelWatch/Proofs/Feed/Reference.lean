import ChannelWatch.Feed.Fetch
import ChannelWatch.Proofs.Feed.Order
import ChannelWatch.Proofs.Runner.Outcomes

/-!
# What a cycle of fetching has to give

A cycle is described by what each source answers (`found`): a source gives its payload if it answers with success, the body
arrives whole and can be decoded, and nothing otherwise. The items of those that give one are put in order, and the others are
counted (`fetchEach_eq`), in whatever order the fetches end and whatever the number of workers.
-/

namespace ChannelWatch

/-- What a body decodes to, if it can be decoded. -/
def Payload.decoded? (provider : Provider) (body : String) : Option Payload :=
  match provider with
  | .bilibili => (Bilibili.Archive.read? body).map .archive
  | .youtube => (YouTube.Uploads.read body).toOption.map .uploads

namespace Feed

/-- The text that answers a request, if the answer is a success and has arrived whole. -/
def answer? (network : Http.Network) (request : Http.Request) : Option String :=
  match Http.send network request with
  | .ok response => if Http.isSuccess response.status && response.complete then some response.text else none
  | .error _ => none

/-- What a source gives: an answer that decodes. -/
def payload? (network : Http.Network) (provider : Provider) (request : Http.Request) : Option Payload :=
  (answer? network request).bind (Payload.decoded? provider)

/-- What each source gives, in the order of the sources. -/
def found (networks : Nat → Http.Network) (v : VideoSettings) (requests : List Http.Request) :
    List (SourceId × Option Payload) :=
  v.sources.zip (requests.mapIdx fun i r => payload? (networks i) v.provider r)

/-- The items of the sources that give some, one source after another. -/
def foundItems (v : VideoSettings) (now : Instant) (sources : List (SourceId × Option Payload)) : List VideoItem :=
  sources.flatMap fun x => match x.2 with
    | some payload => payload.items v.urlTemplate now x.1
    | none => []

/-- How many sources give nothing. -/
def missed (sources : List (SourceId × Option Payload)) : Nat :=
  sources.countP (·.2.isNone)

variable {networks : Nat → Http.Network} {v : VideoSettings} {requests : List Http.Request} {now : Instant}

/-- A body decodes to a value, or the decoding ends without one. -/
theorem toOption_decode (provider : Provider) (url body : String) :
    (Payload.decode provider url body).outcome.toOption = Payload.decoded? provider body := by
  unfold Payload.decode Payload.decoded?
  cases provider with
  | bilibili => cases Bilibili.Archive.read? body <;> rfl
  | youtube =>
    cases YouTube.Uploads.read body with
    | ok u => rfl
    | error fault => cases fault <;> rfl

/-- The fetch of a feed ends with a value exactly if the source gives one. -/
theorem toOption_fetchOne (network : Http.Network) (provider : Provider) (request : Http.Request) :
    (fetchOne network provider request).outcome.toOption = payload? network provider request := by
  unfold fetchOne payload? answer? Http.fetchText
  cases Http.send network request with
  | error fault => rfl
  | ok response =>
    cases hs : Http.isSuccess response.status with
    | false => simp [hs]; rfl
    | true =>
      cases hc : response.complete with
      | false => simp [hs, hc]; rfl
      | true => simp [hs, hc, toOption_decode]

/-- The outcomes of a cycle's tasks. -/
def outcomes (networks : Nat → Http.Network) (v : VideoSettings) (requests : List Http.Request) :
    List (Except Fault Payload) :=
  (tasks networks v.provider requests).map (·.ending.outcome)

/-- The outcomes are values for the sources that give something, and faults for the others. -/
theorem found_eq (networks : Nat → Http.Network) (v : VideoSettings) (requests : List Http.Request) :
    found networks v requests =
      (v.sources.zip (outcomes networks v requests)).map fun p => (p.1, p.2.toOption) := by
  have hmap : (outcomes networks v requests).map (·.toOption) =
      requests.mapIdx fun i r => payload? (networks i) v.provider r := by
    refine List.ext_getElem? fun i => ?_
    simp only [outcomes, tasks, List.getElem?_map, List.getElem?_mapIdx, Option.map_map]
    exact congrArg (fun f => requests[i]?.map f) (funext fun r => toOption_fetchOne _ _ _)
  rw [found, ← hmap, List.zip_map_right]
  rfl

/-- The merge collects the items of the sources that give some. -/
theorem collected_eq (pairs : List (SourceId × Except Fault Payload)) :
    collected (Payload.items v.urlTemplate now) pairs = foundItems v now (pairs.map fun p => (p.1, p.2.toOption)) := by
  rw [collected, foundItems, List.flatMap_map]
  refine congrArg (fun f => pairs.flatMap f) (funext fun p => ?_)
  obtain ⟨source, outcome⟩ := p
  cases outcome <;> rfl

/-- The merge counts the sources that give nothing. -/
theorem failures_eq (pairs : List (SourceId × Except Fault Payload)) :
    failures pairs = missed (pairs.map fun p => (p.1, p.2.toOption)) := by
  rw [failures, missed, List.countP_map]
  refine congrArg (fun f => pairs.countP f) (funext fun p => ?_)
  obtain ⟨source, outcome⟩ := p
  cases outcome <;> rfl

/-- There are items exactly if some source gives a payload with an item. -/
theorem foundItems_ne_nil_iff {sources : List (SourceId × Option Payload)} :
    foundItems v now sources ≠ [] ↔
      ∃ source payload, (source, some payload) ∈ sources ∧ payload.items v.urlTemplate now source ≠ [] := by
  rw [foundItems, ne_eq, List.flatMap_eq_nil_iff]
  constructor
  · intro h
    obtain ⟨⟨source, outcome⟩, hx⟩ := Classical.not_forall.mp h
    obtain ⟨hmem, hitems⟩ := Classical.not_imp.mp hx
    cases outcome with
    | none => exact absurd rfl hitems
    | some payload => exact ⟨source, payload, hmem, hitems⟩
  · rintro ⟨source, payload, hmem, hitems⟩ h
    exact hitems (h _ hmem)

theorem effectiveLimit_ne_zero (v : VideoSettings) : v.effectiveLimit ≠ 0 := by
  unfold VideoSettings.effectiveLimit
  split
  · decide
  · assumption

/-- The merge of the outcomes of a cycle: no content if no source gives an item, else the newest items up to the limit, and
how many sources give nothing. -/
theorem mergeOutcomes_eq (networks : Nat → Http.Network) (v : VideoSettings) (requests : List Http.Request) (now : Instant) :
    mergeOutcomes v now (outcomes networks v requests) =
      if foundItems v now (found networks v requests) = [] then .error .noContent
      else .ok ⟨(newestFirst (foundItems v now (found networks v requests))).take v.effectiveLimit,
        missed (found networks v requests)⟩ := by
  simp only [mergeOutcomes, merge, collected_eq, failures_eq, ← found_eq, List.isEmpty_iff, limited,
    effectiveLimit_ne_zero, if_false]

/-- A list of results that are all values is read as the list of the values. -/
theorem mapM_id_map_ok {α ε : Type} (l : List α) : (l.map Except.ok : List (Except ε α)).mapM id = .ok l := by
  induction l with
  | nil => rfl
  | cons a l ih =>
    rw [List.map_cons, List.mapM_cons, ih]
    rfl

/-- Results that are all values are the values that they have. -/
theorem eq_map_ok_of_all {α ε : Type} {l : List (Except ε α)} (h : (l.all (·.toBool)) = true) :
    l = (l.filterMap (·.toOption)).map .ok := by
  induction l with
  | nil => rfl
  | cons x l ih =>
    rw [List.all_cons, Bool.and_eq_true] at h
    cases x with
    | error => nomatch h.1
    | ok a => exact congrArg (Except.ok a :: ·) (ih h.2)

/-- One cycle of fetching whose requests can all be built, for at least one source and with at least one worker. -/
theorem fetchEach_eq (hrequests : v.requests = requests.map .ok) (hsources : v.sources ≠ []) (hworkers : v.workers ≠ 0) :
    fetchEach networks v now = mergeOutcomes v now (outcomes networks v requests) := by
  have hbuilt : builtRequests v = .ok requests := by
    rw [builtRequests, hrequests, mapM_id_map_ok]
  have hne : tasks networks v.provider requests ≠ [] := by
    have hlen := congrArg List.length hrequests
    rw [VideoSettings.requests, List.length_map, List.length_map] at hlen
    rw [← List.length_pos_iff] at hsources ⊢
    rw [tasks, List.length_mapIdx, ← hlen]
    exact hsources
  have hdispatch : Runner.execute v.workers (tasks networks v.provider requests) = .ok (outcomes networks v requests) := by
    simp [Runner.execute, Runner.dispatchFault?, hne, hworkers, outcomes]
  simp only [fetchEach, hbuilt, hdispatch, bind, Except.bind]

/-- What a cycle gives whose job has come to its end. -/
def concluded? (v : VideoSettings) (now : Instant) (r : Runner.Run Payload) : Option (Except Fault MergedFeed) :=
  (r.outcomes.mapM id).map (mergeOutcomes v now)

/-- In whatever order the fetches begin and end, and whatever the number of workers: they come to an end, and what they give
then is the same. -/
theorem concluded?_of_atEnd {workers : Nat} {events : List Runner.Event} {r : Runner.Run Payload} (hworkers : workers ≠ 0)
    (h : (Runner.Run.initial workers (tasks networks v.provider requests)).steps? events = some r) :
    events.length ≤ 2 * requests.length ∧
      (r.AtEnd → concluded? v now r = some (mergeOutcomes v now (outcomes networks v requests))) := by
  obtain ⟨hlen, hend⟩ := Runner.outcomes_of_atEnd hworkers h
  rw [tasks, List.length_mapIdx] at hlen
  refine ⟨hlen, fun he => ?_⟩
  have houtcomes : r.outcomes = (outcomes networks v requests).map some := by
    rw [hend he, outcomes, List.map_map]
    rfl
  have hread : r.outcomes.mapM id = some (outcomes networks v requests) :=
    mapM_eq_some_iff.mpr (houtcomes ▸ List.map_id _)
  rw [concluded?, hread]
  rfl

end Feed

end ChannelWatch
