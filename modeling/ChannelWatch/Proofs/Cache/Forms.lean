import Mathlib.Data.List.Forall2
import ChannelWatch.Proofs.Cache.Answered
import ChannelWatch.Scenario.Play

/-!
# The two forms of a URL

An image has a URL with `https://` and, for the cache, may be called by the same one with `http://`. A call keeps nothing of its
URL but the secure form, so that two runs whose calls differ only in the forms go through the same states, and whatever comes of a
state, an answer, a question to the source or a reference, is the same too (`State.FormsAlike`).
-/

namespace ChannelWatch

/-- A URL, and the same one or its form with `http://` if it begins with `https://`. -/
inductive Link.Form : String → String → Prop
  | same (url : String) : Form url url
  | http (rest : String) : Form ("https://" ++ rest) ("http://" ++ rest)

namespace Link.Form

variable {url form : String}

/-- Both forms of a URL have one secure form. -/
theorem secure_eq (h : Form url form) : secure form = secure url := by
  cases h with
  | same => rfl
  | http rest =>
    have hsecure : ¬IsInsecure ("https://" ++ rest) := by
      rintro ⟨tail, h⟩
      simp at h
    rw [secure_of_not_isInsecure hsecure, secure, String.toList_append, Text.stripStart?_append]
    rw [← String.toList_inj, String.toList_ofList, String.toList_append]

theorem isEmpty_eq (h : Form url form) : form.isEmpty = url.isEmpty := by
  rw [Bool.eq_iff_iff, String.isEmpty_iff, String.isEmpty_iff, ← secure_eq_empty_iff, h.secure_eq, secure_eq_empty_iff]

end Link.Form

namespace Cache

variable {p : Policy} {s s' : State} {e : Event} {url form : String}

/-- Both forms of a URL have one cache file. -/
theorem nameFor_form (h : Link.Form url form) : nameFor form = nameFor url := by
  rw [nameFor, nameFor, h.secure_eq]

/-! ## Runs -/

/-- An event, and the same one or the call with the other form of its URL. -/
inductive Event.Form : Event → Event → Prop
  | same (e : Event) : Form e e
  | call (purpose : Purpose) {url form : String} (h : Link.Form url form) : Form (.call purpose url) (.call purpose form)

theorem State.beginCall_form (s : State) (purpose : Purpose) (h : Link.Form url form) :
    s.beginCall p purpose form = s.beginCall p purpose url := by
  simp only [beginCall, h.secure_eq, h.isEmpty_eq]

/-- An event leads to the same state with both forms of its URL. -/
theorem Event.Form.step?_eq {e' : Event} (h : Event.Form e e') (s : State) : s.step? p e' = s.step? p e := by
  cases h with
  | same => rfl
  | call purpose h => exact congrArg some (s.beginCall_form purpose h)

/-- Runs whose calls differ in the forms of their URLs lead to the same state. -/
theorem State.steps?_forms {events events' : List Event} (h : List.Forall₂ Event.Form events events') (s : State) :
    s.steps? p events' = s.steps? p events := by
  induction h generalizing s with
  | nil => rfl
  | cons he _ ih =>
    rw [steps?, steps?, he.step?_eq]
    exact Option.bind_congr fun m _ => ih m

/-- Attempts whose calls differ in the forms of their URLs lead to the same state. -/
theorem State.attempt_forms {events events' : List Event} (h : List.Forall₂ Event.Form events events') (s : State) :
    s.attempt p events' = s.attempt p events := by
  induction h generalizing s with
  | nil => rfl
  | cons he _ ih => rw [attempt, attempt, he.step?_eq, ih]

/-- Calls that are made at once come to the same with both forms of their URLs. -/
theorem State.callAll_forms {urls forms : List String} (h : List.Forall₂ Link.Form urls forms) (s : State) (purpose : Purpose) :
    s.callAll p purpose forms = s.callAll p purpose urls := by
  have hcalls : List.Forall₂ Event.Form (urls.map (.call purpose)) (forms.map (.call purpose)) := by
    rw [List.forall₂_map_left_iff, List.forall₂_map_right_iff]
    exact h.imp fun _ _ hform => .call purpose hform
  have hsame : ∀ events : List Event, List.Forall₂ Event.Form events events := fun events =>
    List.forall₂_same.mpr fun e _ => .same e
  simp only [callAll, ← h.length_eq]
  rw [attempt_forms (List.rel_append (List.rel_append hcalls (hsame _)) (hsame _))]

end Cache

/-! ## Scenarios -/

/-- An action, and the same one or one with other forms of its URLs. -/
inductive Action.Form : Action → Action → Prop
  | same (a : Action) : Form a a
  | resolve {url form : String} (h : Link.Form url form) : Form (.resolve url) (.resolve form)
  | resolveAll {urls forms : List String} (h : List.Forall₂ Link.Form urls forms) : Form (.resolveAll urls) (.resolveAll forms)
  | preload {url form : String} (h : Link.Form url form) : Form (.preload url) (.preload form)
  | spawn (name : String) {url form : String} (h : Link.Form url form) : Form (.spawn name url) (.spawn name form)

namespace Scenario

/-- Calls in a scenario come to the same with both forms of their URLs. -/
theorem call_forms {urls forms : List String} (h : List.Forall₂ Link.Form urls forms) (s : Scenario) (purpose : Cache.Purpose) :
    s.call purpose forms = s.call purpose urls := by
  unfold call
  cases s.service.cache with
  | none => rfl
  | some c => simp only [c.state.callAll_forms h]

/-- A call in a scenario comes to the same with both forms of its URL. -/
theorem call_form {url form : String} (h : Link.Form url form) (s : Scenario) (purpose : Cache.Purpose) :
    s.call purpose [form] = s.call purpose [url] :=
  s.call_forms (.cons h .nil) purpose

/-- An action has the same answer and leads to the same scenario with other forms of its URLs. -/
theorem perform_form {a a' : Action} (h : Action.Form a a') (s : Scenario) : s.perform a' = s.perform a := by
  cases h with
  | same => rfl
  | resolve h => simp only [perform, runResolve, call_form h]
  | resolveAll h => simp only [perform, runResolve, call_forms h]
  | preload h => simp only [perform, call_form h]
  | spawn name h => simp only [perform, runSpawn, call_form h]

/-- A list of actions has the same answers with other forms of their URLs. -/
theorem play_forms {actions actions' : List Action} (h : List.Forall₂ Action.Form actions actions') (s : Scenario) :
    s.play actions' = s.play actions := by
  induction h generalizing s with
  | nil => rfl
  | cons ha _ ih => simp only [play, perform_form ha, ih]

end Scenario

namespace Cache

variable {p : Policy} {s s' : State} {e : Event} {url : String}

/-! ## What the cache says itself -/

/-- What a step asks of the source is the URL of a download. -/
theorem State.exists_download_of_mem_asks (h : url ∈ s.asks e) : ∃ x ∈ s.downloads, x.url = url := by
  cases e with
  | ask d =>
    obtain ⟨x, hd, rfl⟩ := Option.map_eq_some_iff.mp (Option.mem_toList.mp h)
    exact ⟨x, List.mem_of_getElem? hd, rfl⟩
  | _ => exact absurd h List.not_mem_nil

/-- Of all that is asked of the source, nothing begins with `http://`. -/
theorem Reachable.asked_secure (h : Reachable p s) : ∀ url ∈ s.asked, ¬Link.IsInsecure url := by
  induction h with
  | begun directory clock => exact fun url hurl => absurd hurl List.not_mem_nil
  | disturbed directory freshFile _ ih => exact ih
  | @step s s' e hr he ih =>
    intro url hurl
    rw [(effect_of_step? he).asked, List.mem_append] at hurl
    rcases hurl with hurl | hurl
    · exact ih url hurl
    · obtain ⟨x, hx, rfl⟩ := State.exists_download_of_mem_asks hurl
      exact (hr.bookkept.downloads_secure x hx).2

/-- A reference to a remote image holds the URL of the call. -/
theorem State.href_of_reference {url href : String} (h : .remote href = s.reference p url) : href = url := by
  unfold reference at h
  split at h
  · split at h <;> nomatch h
  · exact ImageRef.remote.inj h

/-- A call that is answered with a remote URL is answered with its own. -/
theorem Reachable.href_of_remote (h : Reachable p s) {c : Nat} {purpose : Purpose} {url href : String}
    (hc : s.calls[c]? = some ⟨purpose, url, .answered (.remote href)⟩) : href = url := by
  induction h with
  | begun directory clock => nomatch hc
  | disturbed directory freshFile _ ih => exact ih hc
  | @step s s' e _ he ih =>
    rcases (callTurn_of_step? he).answer_came hc with hbefore | ⟨-, given, rfl, hfirst⟩ | ⟨-, -, href⟩
    · exact ih hbefore
    · unfold State.firstRef? at hfirst
      split at hfirst
      · nomatch hfirst
      · split at hfirst <;> nomatch hfirst
    · exact State.href_of_reference href

/-- No answer of the cache refers to an insecure URL. -/
theorem Reachable.remote_secure (h : Reachable p s) {c : Nat} {href : String} (ha : s.answer? c = some (.remote href)) :
    ¬Link.IsInsecure href := by
  obtain ⟨purpose, url, hc⟩ := State.answer?_eq_some_iff.mp ha
  obtain rfl := h.href_of_remote hc
  exact (h.bookkept.calls_secure _ (List.mem_of_getElem? hc)).1

/-! ## Both forms are one -/

/-- From a state on, nothing tells the two forms of a URL apart. -/
structure State.FormsAlike (p : Policy) (s : State) : Prop where
  /-- Runs that differ in the forms of URLs go through the same states. -/
  runs : ∀ events events', List.Forall₂ Event.Form events events' →
    ∀ n, s.steps? p (events'.take n) = s.steps? p (events.take n)
  /-- Calls that are made at once have the same places and come to the same state. -/
  together : ∀ purpose urls forms, List.Forall₂ Link.Form urls forms → s.callAll p purpose forms = s.callAll p purpose urls
  /-- Both forms have one cache file. -/
  names : ∀ url form, Link.Form url form → nameFor form = nameFor url
  /-- In every run, nothing that is asked of the source and no reference to a remote image begins with `http://`. -/
  secure : ∀ events t, s.steps? p events = some t → (∀ url ∈ t.asked, ¬Link.IsInsecure url) ∧
    ∀ c href, t.answer? c = some (.remote href) → ¬Link.IsInsecure href
  /-- In a scenario, an action has the same answer and leaves the same behind, and so has every list of actions. -/
  acts : ∀ world : Scenario, (∀ a a', Action.Form a a' → world.perform a' = world.perform a) ∧
    ∀ actions actions', List.Forall₂ Action.Form actions actions' → world.play actions' = world.play actions

/-- In every state that a cache can come to, the two forms of a URL cannot be told apart. -/
theorem forms_alike (h : Reachable p s) : s.FormsAlike p where
  runs := fun _ _ hforms n => State.steps?_forms (List.forall₂_take n hforms) s
  together := fun purpose _ _ hforms => s.callAll_forms hforms purpose
  names := fun _ _ hform => nameFor_form hform
  secure := fun _ _ ht => ⟨(h.steps? ht).asked_secure, fun _ _ ha => (h.steps? ht).remote_secure ha⟩
  acts := fun world => ⟨fun _ _ hform => world.perform_form hform, fun _ _ hforms => world.play_forms hforms⟩

/-- A call by either form of a URL and a preload by its form with `http://` share one download. -/
theorem forms_alike_shared_download : ∃ s t, Reachable ⟨10, "/", 1⟩ s ∧ s.FormsAlike ⟨10, "/", 1⟩ ∧
    s.steps? ⟨10, "/", 1⟩ [.call .resolve "https://a/b.png", .register 0, .lookAgain 0, .call .preload "http://a/b.png",
      .register 1] = some t ∧
    s.steps? ⟨10, "/", 1⟩ [.call .resolve "http://a/b.png", .register 0, .lookAgain 0, .call .preload "http://a/b.png",
      .register 1] = some t ∧
    t.inFlight = 1 ∧ t.answer? 0 = some (.remote "https://a/b.png") := by
  have hr : Reachable ⟨10, "/", 1⟩ (State.begun ⟨10, "/", 1⟩ .absent 0) := .begun .absent 0
  have alike := forms_alike hr
  obtain ⟨t, ht, hflight, hanswer⟩ : ∃ t, (State.begun ⟨10, "/", 1⟩ .absent 0).steps? ⟨10, "/", 1⟩
      [.call .resolve "https://a/b.png", .register 0, .lookAgain 0, .call .preload "http://a/b.png", .register 1] = some t ∧
      t.inFlight = 1 ∧ t.answer? 0 = some (.remote "https://a/b.png") := ⟨_, rfl, rfl, rfl⟩
  have hforms := alike.runs [.call .resolve "https://a/b.png", .register 0, .lookAgain 0, .call .preload "http://a/b.png",
    .register 1] _ (.cons (.call .resolve (.http "a/b.png")) (List.forall₂_same.mpr fun e _ => .same e)) 5
  exact ⟨_, t, hr, alike, ht, hforms.trans ht, hflight, hanswer⟩

end Cache

end ChannelWatch
