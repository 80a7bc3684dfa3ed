import Mathlib.Data.List.Nodup
import ChannelWatch.Proofs.Feed.Order

/-!
# What a merge gives

A merge is described by what the source at each place gives (`itemsAt`): it keeps the newest of all items in their one order, up
to the limit, and counts the faults (`merge_eq_reference`). The order of the sources decides nothing but which of several items of
one instant comes first (`merge_of_perm`).
-/

namespace ChannelWatch.Feed

variable {α : Type} {sources : List SourceId} {outcomes : List (Except Fault α)} {limit : Nat}
  {convert : SourceId → α → List VideoItem}

/-! ## The items of the sources -/

/-- The items of the source at a place: its value is converted by this very source, and a fault gives none. -/
def itemsAt (convert : SourceId → α → List VideoItem) (sources : List SourceId) (outcomes : List (Except Fault α))
    (i : Nat) : List VideoItem :=
  match sources[i]?, outcomes[i]? with
  | some source, some (.ok value) => convert source value
  | _, _ => []

/-- The items of all sources, one source after another. -/
def allItems (convert : SourceId → α → List VideoItem) (sources : List SourceId) (outcomes : List (Except Fault α)) :
    List VideoItem :=
  (List.range sources.length).flatMap (itemsAt convert sources outcomes)

/-- What is collected from sources that stand beside their outcomes are the items of all sources. -/
theorem collected_zip (convert : SourceId → α → List VideoItem) (sources : List SourceId)
    (outcomes : List (Except Fault α)) : collected convert (sources.zip outcomes) = allItems convert sources outcomes := by
  induction sources generalizing outcomes with
  | nil => rfl
  | cons source sources ih =>
    cases outcomes with
    | nil =>
      refine (List.flatMap_eq_nil_iff.mpr fun i _ => ?_).symm
      simp [itemsAt]
    | cons outcome outcomes =>
      have hrest : allItems convert (source :: sources) (outcome :: outcomes) =
          itemsAt convert (source :: sources) (outcome :: outcomes) 0 ++ allItems convert sources outcomes := by
        rw [allItems, List.length_cons, List.range_succ_eq_map, List.flatMap_cons, List.flatMap_map]
        rfl
      rw [hrest, ← ih outcomes]
      cases outcome <;> rfl

/-- The item comes of the value of a source, and this very source has converted it. -/
def IsConverted (convert : SourceId → α → List VideoItem) (sources : List SourceId) (outcomes : List (Except Fault α))
    (item : VideoItem) : Prop :=
  ∃ (i : Nat) (source : SourceId) (value : α), sources[i]? = some source ∧ outcomes[i]? = some (.ok value) ∧
    item ∈ convert source value

/-- An item of any source has been converted by its own source. -/
theorem isConverted_of_mem {item : VideoItem} (h : item ∈ allItems convert sources outcomes) :
    IsConverted convert sources outcomes item := by
  obtain ⟨i, -, hi⟩ := List.mem_flatMap.mp h
  unfold itemsAt at hi
  split at hi
  · rename_i source value hsource hvalue
    exact ⟨i, source, value, hsource, hvalue, hi⟩
  · nomatch hi

/-- The faults among outcomes that all have a source are the failures. -/
theorem failures_zip (h : outcomes.length = sources.length) :
    failures (sources.zip outcomes) = outcomes.countP (!·.toBool) := by
  have houtcomes : outcomes = (sources.zip outcomes).map (·.2) := (List.map_snd_zip (Nat.le_of_eq h)).symm
  conv => rhs; rw [houtcomes]
  rw [List.countP_map, failures]
  refine congrArg (fun f => List.countP f _) (funext fun pair => ?_)
  obtain ⟨source, outcome⟩ := pair
  cases outcome <;> rfl

/-! ## The merge -/

theorem limited_append (limit : Nat) (items : List VideoItem) :
    limited limit items ++ (if limit = 0 then [] else items.drop limit) = items := by
  unfold limited
  split
  · exact List.append_nil items
  · exact List.take_append_drop limit items

/-- The merge of as many outcomes as there are sources fails exactly if no source gives an item. Otherwise it gives the first
items up to the limit of the one order in which the newest come first and those of one instant stay as they were, and how many
outcomes are faults: nothing that it drops is newer than what it keeps, and every item that it keeps comes of its own source. -/
theorem merge_eq_reference (convert : SourceId → α → List VideoItem) (limit : Nat) (h : outcomes.length = sources.length) :
    (merge sources outcomes limit convert = .error .noContent ↔ allItems convert sources outcomes = []) ∧
      (allItems convert sources outcomes ≠ [] → ∃ sorted kept dropped,
        IsNewestFirst (allItems convert sources outcomes) sorted ∧
        (∀ other, IsNewestFirst (allItems convert sources outcomes) other → other = sorted) ∧
        sorted = kept ++ dropped ∧ kept = (if limit = 0 then sorted else sorted.take limit) ∧
        merge sources outcomes limit convert = .ok ⟨kept, outcomes.countP (!·.toBool)⟩ ∧
        (∀ item ∈ kept, ∀ other ∈ dropped, other.published.le item.published = true) ∧
        ∀ item ∈ kept, IsConverted convert sources outcomes item) := by
  have hmerge : merge sources outcomes limit convert =
      if allItems convert sources outcomes = [] then .error .noContent
      else .ok ⟨limited limit (newestFirst (allItems convert sources outcomes)), outcomes.countP (!·.toBool)⟩ := by
    simp only [merge, collected_zip, failures_zip h, List.isEmpty_iff]
  have hnewest := isNewestFirst_newestFirst (allItems convert sources outcomes)
  have happend := limited_append limit (newestFirst (allItems convert sources outcomes))
  constructor
  · rw [hmerge]
    split <;> simp_all
  · intro hne
    refine ⟨_, _, _, hnewest, fun other hother => hother.unique hnewest, happend.symm, rfl, hmerge.trans (if_neg hne), ?_, ?_⟩
    · have hordered := hnewest.ordered
      rw [← happend] at hordered
      exact (List.pairwise_append.mp hordered).2.2
    · intro item hitem
      have hsorted : item ∈ newestFirst (allItems convert sources outcomes) := happend ▸ List.mem_append_left _ hitem
      exact isConverted_of_mem (hnewest.perm.mem_iff.mp hsorted)

/-- A video of some instant, of which nothing else is known. -/
def videoAt (title : String) (seconds : Int) : VideoItem :=
  ⟨title, "", "", "", "", ⟨seconds, 0⟩⟩

/-- Of three sources one fails. The limit falls between two videos of one instant: that of the first source is kept. -/
theorem merge_eq_reference_tie :
    let sources : List SourceId := [⟨"1"⟩, ⟨"2"⟩, ⟨"3"⟩]
    let outcomes : List (Except Fault String) := [.ok "a", .error .emptyJob, .ok "b"]
    let convert := fun (source : SourceId) title => [videoAt (title ++ source.written) 5]
    outcomes.length = sources.length ∧ allItems convert sources outcomes = [videoAt "a1" 5, videoAt "b3" 5] ∧
      merge sources outcomes 1 convert = .ok ⟨[videoAt "a1" 5], 1⟩ := by
  intro sources outcomes convert
  have hall : allItems convert sources outcomes = [videoAt "a1" 5, videoAt "b3" 5] := by decide
  have hlength : outcomes.length = sources.length := rfl
  obtain ⟨-, hmerge⟩ := merge_eq_reference convert 1 hlength
  rw [hall] at hmerge
  obtain ⟨sorted, kept, dropped, -, hunique, -, rfl, hkept, -⟩ := hmerge nofun
  have hsame : IsNewestFirst [videoAt "a1" 5, videoAt "b3" 5] [videoAt "a1" 5, videoAt "b3" 5] :=
    ⟨List.Perm.refl _, by decide, fun _ => rfl⟩
  rw [← hunique _ hsame] at hkept
  exact ⟨hlength, hall, hkept⟩

/-! ## The order of the sources -/

/-- The merge of outcomes that stand beside their sources. -/
def mergePairs (convert : SourceId → α → List VideoItem) (limit : Nat) (pairs : List (SourceId × Except Fault α)) :
    Except Fault MergedFeed :=
  merge (pairs.map (·.1)) (pairs.map (·.2)) limit convert

variable {pairs pairs' : List (SourceId × Except Fault α)}

/-- The merge of pairs collects their items and counts their failures. -/
theorem mergePairs_eq (convert : SourceId → α → List VideoItem) (limit : Nat) (pairs : List (SourceId × Except Fault α)) :
    mergePairs convert limit pairs = if collected convert pairs = [] then .error .noContent
      else .ok ⟨limited limit (newestFirst (collected convert pairs)), failures pairs⟩ := by
  have hzip : (pairs.map (·.1)).zip (pairs.map (·.2)) = pairs := (List.zip_of_prod rfl rfl).symm
  simp only [mergePairs, merge, hzip, List.isEmpty_iff]

/-- Items in another order have the same times when they are sorted. -/
theorem published_newestFirst_of_perm {items items' : List VideoItem} (h : items.Perm items') :
    (newestFirst items).map (·.published) = (newestFirst items').map (·.published) := by
  have hsorted := isNewestFirst_newestFirst items
  have hsorted' := isNewestFirst_newestFirst items'
  have hperm := (hsorted.perm.trans (h.trans hsorted'.perm.symm)).map (·.published)
  have hordered : ((newestFirst items).map (·.published)).Pairwise fun a b => b.le a = true :=
    List.pairwise_map.mpr hsorted.ordered
  have hordered' : ((newestFirst items').map (·.published)).Pairwise fun a b => b.le a = true :=
    List.pairwise_map.mpr hsorted'.ordered
  exact hperm.eq_of_pairwise (fun a b _ _ hab hba => Instant.le_antisymm hba hab) hordered hordered'

/-- Items of which no two have the same time are sorted in one way, whatever order they are in. -/
theorem newestFirst_of_perm {items items' : List VideoItem} (h : items.Perm items')
    (hn : (items.map (·.published)).Nodup) : newestFirst items = newestFirst items' := by
  have hsorted := isNewestFirst_newestFirst items
  have hsorted' := isNewestFirst_newestFirst items'
  refine (hsorted.perm.trans (h.trans hsorted'.perm.symm)).eq_of_pairwise (fun a b ha hb hab hba => ?_) hsorted.ordered
    hsorted'.ordered
  have hb : b ∈ items := h.mem_iff.mpr (hsorted'.perm.mem_iff.mp hb)
  exact List.inj_on_of_nodup_map hn (hsorted.perm.mem_iff.mp ha) hb (Instant.le_antisymm hba hab)

/-- A limit keeps the times of as many items whatever the items are. -/
theorem published_limited (limit : Nat) (items : List VideoItem) :
    (limited limit items).map (·.published) =
      if limit = 0 then items.map (·.published) else (items.map (·.published)).take limit := by
  unfold limited
  split
  · rfl
  · exact List.map_take

/-- Sources in another order, each with its outcome, are merged into nothing alike, or into feeds with as many failed sources and
the same times one after another; the feeds have the same items if no two items have the same time. -/
theorem merge_of_perm (convert : SourceId → α → List VideoItem) (limit : Nat) (h : pairs.Perm pairs') :
    (mergePairs convert limit pairs = .error .noContent ∧ mergePairs convert limit pairs' = .error .noContent) ∨
      ∃ feed feed', mergePairs convert limit pairs = .ok feed ∧ mergePairs convert limit pairs' = .ok feed' ∧
        feed.failedSources = feed'.failedSources ∧
        feed.items.map (·.published) = feed'.items.map (·.published) ∧
        (((collected convert pairs).map (·.published)).Nodup → feed.items = feed'.items) := by
  have hitems : (collected convert pairs).Perm (collected convert pairs') := h.flatMap_right _
  have hfailures : failures pairs = failures pairs' := h.countP_eq _
  rw [mergePairs_eq, mergePairs_eq]
  by_cases hnone : collected convert pairs = []
  · have hnone' : collected convert pairs' = [] := (hnone ▸ hitems).nil_eq.symm
    exact Or.inl ⟨if_pos hnone, if_pos hnone'⟩
  · have hsome' : collected convert pairs' ≠ [] := fun hnone' => hnone (hnone' ▸ hitems).eq_nil
    refine Or.inr ⟨_, _, if_neg hnone, if_neg hsome', hfailures, ?_, fun hn => ?_⟩
    · rw [published_limited, published_limited, published_newestFirst_of_perm hitems]
    · rw [newestFirst_of_perm hitems hn]

/-- The limit falls between two videos of one instant: the order of their sources decides which one is kept, and not its time. -/
theorem merge_of_perm_tie :
    let pairs : List (SourceId × Except Fault String) := [(⟨"1"⟩, .ok "a"), (⟨"2"⟩, .error .emptyJob), (⟨"3"⟩, .ok "b")]
    let pairs' : List (SourceId × Except Fault String) := [(⟨"3"⟩, .ok "b"), (⟨"1"⟩, .ok "a"), (⟨"2"⟩, .error .emptyJob)]
    let convert := fun (_ : SourceId) title => [videoAt title 5]
    pairs.Perm pairs' ∧ ∃ feed feed', mergePairs convert 1 pairs = .ok feed ∧ mergePairs convert 1 pairs' = .ok feed' ∧
      feed.items = [videoAt "a" 5] ∧ feed'.items = [videoAt "b" 5] ∧
      feed.failedSources = feed'.failedSources ∧ feed.items.map (·.published) = feed'.items.map (·.published) := by
  intro pairs pairs' convert
  have hperm : pairs.Perm pairs' := by decide
  have hfirst : mergePairs convert 1 pairs = .ok ⟨[videoAt "a" 5], 1⟩ := by
    have hsorted : newestFirst (collected convert pairs) = [videoAt "a" 5, videoAt "b" 5] :=
      List.mergeSort_of_pairwise (by decide)
    rw [mergePairs_eq, if_neg nofun, hsorted]
    rfl
  have hsecond : mergePairs convert 1 pairs' = .ok ⟨[videoAt "b" 5], 1⟩ := by
    have hsorted : newestFirst (collected convert pairs') = [videoAt "b" 5, videoAt "a" 5] :=
      List.mergeSort_of_pairwise (by decide)
    rw [mergePairs_eq, if_neg nofun, hsorted]
    rfl
  obtain ⟨hnone, -⟩ | ⟨feed, feed', hfeed, hfeed', hfailed, htimes, -⟩ := merge_of_perm convert 1 hperm
  · nomatch hfirst.symm.trans hnone
  · refine ⟨hperm, feed, feed', hfeed, hfeed', ?_, ?_, hfailed, htimes⟩
    · obtain rfl := Except.ok.inj (hfirst.symm.trans hfeed)
      rfl
    · obtain rfl := Except.ok.inj (hsecond.symm.trans hfeed')
      rfl

end ChannelWatch.Feed
