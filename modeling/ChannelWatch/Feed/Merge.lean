import ChannelWatch.Fault
import ChannelWatch.Feed.Item
import ChannelWatch.Source

/-!
# Merging feeds

The items of all sources that answered, newest first; items of the same instant stay in the order of their sources. A
source that failed is counted, and a merge without any item fails.
-/

namespace ChannelWatch

/-- The merged items, and how many sources failed. -/
structure MergedFeed where
  items : List VideoItem
  failedSources : Nat
  deriving DecidableEq

namespace MergedFeed

/-- Some sources failed. -/
def isPartial (m : MergedFeed) : Bool :=
  0 < m.failedSources

/-- The soft fault that some sources failed, if any did. -/
def partialFault? (m : MergedFeed) : Option Fault :=
  if m.isPartial then some (.partialContent m.failedSources) else none

end MergedFeed

namespace Feed

/-- The items newest first; those of the same instant keep their order. -/
def newestFirst (items : List VideoItem) : List VideoItem :=
  items.mergeSort fun a b => b.published.le a.published

/-- The first `limit` items; a limit of zero keeps all. -/
def limited (limit : Nat) (items : List VideoItem) : List VideoItem :=
  if limit = 0 then items else items.take limit

/-- The items of the sources that answered, one source after another. -/
def collected {α : Type} (convert : SourceId → α → List VideoItem) (pairs : List (SourceId × Except Fault α)) :
    List VideoItem :=
  pairs.flatMap fun p => match p.2 with
    | .ok a => convert p.1 a
    | .error _ => []

/-- How many outcomes are faults. -/
def failures {α : Type} (pairs : List (SourceId × Except Fault α)) : Nat :=
  pairs.countP fun p => match p.2 with
    | .ok _ => false
    | .error _ => true

/-- The merge of the sources' outcomes, given in the order of the sources, each converted to items by its own source. -/
def merge {α : Type} (sources : List SourceId) (outcomes : List (Except Fault α)) (limit : Nat)
    (convert : SourceId → α → List VideoItem) : Except Fault MergedFeed :=
  let pairs := sources.zip outcomes
  let items := collected convert pairs
  if items.isEmpty then .error .noContent
  else .ok ⟨limited limit (newestFirst items), failures pairs⟩

end Feed

end ChannelWatch
