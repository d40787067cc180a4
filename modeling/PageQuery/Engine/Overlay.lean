/-
# The highlight overlay

Markers lie over the page in the order they were added. A marker is active until the time it
expires, or for good. Times are milliseconds on one clock.

Key definitions: `Marker`, `Overlay`, `Overlay.prune`, `Overlay.active`, `Overlay.count`.
Key theorem: `Overlay.active_prune`.
-/
import PageQuery.Json.Printer
import PageQuery.Page.Rect

namespace PageQuery

/-- One highlighted box. -/
structure Marker where
  uid : String
  rect : Rect
  fill : String
  border : String
  zIndex : Int
  /-- The first moment at which it is no longer active. -/
  expires? : Option Nat
  deriving DecidableEq, Repr

namespace Marker

def isActive (m : Marker) (now : Nat) : Bool :=
  match m.expires? with
  | none => true
  | some deadline => decide (now < deadline)

/-- A marker that is active now was active before. -/
theorem isActive_of_le {m : Marker} {s t : Nat} (h : s ≤ t) (active : m.isActive t = true) :
    m.isActive s = true := by
  unfold isActive at *
  split at active
  · rfl
  · simp at active ⊢; omega

/-- What can be seen of a marker. -/
def toJson (m : Marker) : Json :=
  .object [("border", .string m.border), ("fill", .string m.fill), ("rect", m.rect.toJson),
    ("uid", .string m.uid), ("z_index", .ofInt m.zIndex)]

end Marker

/-- Markers and the number of names handed out. -/
structure Overlay where
  markers : List Marker
  named : Nat
  deriving DecidableEq, Repr

namespace Overlay

def empty : Overlay := ⟨[], 0⟩

/-- A name that was not handed out before. -/
def nextUid (o : Overlay) : String × Overlay :=
  ("specview-highlight-" ++ String.ofList (natChars (o.named + 1)),
    { o with named := o.named + 1 })

def add (o : Overlay) (m : Marker) : Overlay := { o with markers := o.markers ++ [m] }

/-- Drops what has expired. -/
def prune (o : Overlay) (now : Nat) : Overlay :=
  { o with markers := o.markers.filter (·.isActive now) }

/-- Drops all markers. -/
def clear (o : Overlay) : Overlay := { o with markers := [] }

def active (o : Overlay) (now : Nat) : List Marker := o.markers.filter (·.isActive now)

def count (o : Overlay) (now : Nat) : Nat := (o.active now).length

/-- Pruning changes nothing that can be seen from then on. -/
@[simp] theorem active_prune (o : Overlay) {s t : Nat} (h : s ≤ t) : (o.prune s).active t = o.active t := by
  simp only [active, prune, List.filter_filter]
  apply List.filter_congr
  intro m _
  by_cases a : m.isActive t
  · simp [a, Marker.isActive_of_le h a]
  · simp [a]

end Overlay

end PageQuery
