import LiveProbe.Probe.Basic
import LiveProbe.Probe.Limiter
import LiveProbe.Table

/-!
The probes that are known. A known probe is installed or pending. The probes at one location form
a group with one hook, which acts for the members in the order in which they joined.
-/
namespace LiveProbe

/-- A probe as it was taken in; the serial number tells it from any other of the same name. -/
structure KnownProbe where
  probe : Probe
  serial : Nat
  deriving DecidableEq, Repr

structure Probes where
  installed : List (String × KnownProbe) := []
  pending : List (String × KnownProbe) := []
  groups : List (HookTarget × Nat) := []
  /-- Members of all groups there ever were; a hook that is late acts for what is left of them. -/
  members : List (Nat × List KnownProbe) := []
  limiters : Limiters := {}
  lastSerial : Nat := 0
  lastGroup : Nat := 0

inductive Admission where
  | idle
  | joins (group : Nat)
  | founds (target : HookTarget)
  deriving DecidableEq, Repr

namespace Probes

def isInstalled (ps : Probes) (id : String) : Bool := Table.contains id ps.installed

def isPending (ps : Probes) (id : String) : Bool := Table.contains id ps.pending

def isKnown (ps : Probes) (id : String) : Bool := ps.isInstalled id || ps.isPending id

def membersOf (ps : Probes) (group : Nat) : List KnownProbe :=
  (Table.get? group ps.members).getD []

def groupInstalled (ps : Probes) (group : Nat) : Bool :=
  (ps.membersOf group).any fun k => ps.isInstalled k.probe.id

def sharesHook (ps : Probes) (target : HookTarget) (id : String) : Bool :=
  match Table.get? target ps.groups with
  | some group => (ps.membersOf group).any fun k => k.probe.id != id
  | none => false

def admission (ps : Probes) (p : Probe) : Except Error Admission :=
  if ps.isKnown p.id then .ok .idle
  else match p.target with
    | .error e => .error e
    | .ok none => .ok .idle
    | .ok (some target) => match Table.get? target ps.groups with
      | some group => .ok (.joins group)
      | none => .ok (.founds target)

def nextGroup (ps : Probes) : Nat := ps.lastGroup + 1

def setMembers (group : Nat) (ks : List KnownProbe) (ps : Probes) : Probes :=
  { ps with members := Table.insert group ks ps.members }

def join (group : Nat) (p : Probe) (ps : Probes) : KnownProbe × Probes :=
  let k : KnownProbe := ⟨p, ps.lastSerial + 1⟩
  (k, { ps with lastSerial := k.serial }.setMembers group (ps.membersOf group ++ [k]))

def found (target : HookTarget) (p : Probe) (ps : Probes) : KnownProbe × Probes :=
  let group := ps.nextGroup
  { ps with lastGroup := group, groups := Table.insert target group ps.groups }.join group p

/-- Takes a probe out of the group of a location; tells whether the group is empty now, which
gives the location up. -/
def leave (target : HookTarget) (id : String) (ps : Probes) : Bool × Probes :=
  match Table.get? target ps.groups with
  | none => (false, ps)
  | some group =>
    let left := (ps.membersOf group).filter fun k => k.probe.id != id
    let ps := ps.setMembers group left
    if left.isEmpty then (true, { ps with groups := Table.erase target ps.groups }) else (false, ps)

def addInstalled (k : KnownProbe) (ps : Probes) : Probes :=
  { ps with installed := Table.insert k.probe.id k ps.installed }

def addPending (k : KnownProbe) (ps : Probes) : Probes :=
  { ps with pending := Table.insert k.probe.id k ps.pending }

def dropInstalled (id : String) (ps : Probes) : Probes :=
  { ps with installed := Table.erase id ps.installed }

def dropPending (id : String) (ps : Probes) : Probes :=
  { ps with pending := Table.erase id ps.pending }

def waitingAt (ps : Probes) (target : HookTarget) : List KnownProbe :=
  (ps.pending.map (·.2)).filter fun k => k.probe.isAt target

def promote (k : KnownProbe) (ps : Probes) : Probes := (ps.dropPending k.probe.id).addInstalled k

def others (named : List String) (probes : List (String × KnownProbe)) :
    List (String × KnownProbe) :=
  probes.filter fun e => !named.contains e.1

/-- Forgets all probes; hooks that are late go on with the groups they know. -/
def clear (ps : Probes) : Probes := { ps with installed := [], pending := [], groups := [] }

/-- Lets a probe have its turn, unless it is a capturing one whose limiter does not let it pass. -/
def takeTurn (k : KnownProbe) (ps : Probes) : Bool × Probes :=
  if !k.probe.capturing then (true, ps)
  else
    let (passes, limiters) := ps.limiters.ask k.serial
    (passes, { ps with limiters })

theorem admission_of_isKnown {ps : Probes} {p : Probe} (h : ps.isKnown p.id = true) :
    ps.admission p = .ok .idle := by
  simp [admission, h]

theorem takeTurn_of_not_capturing {k : KnownProbe} (h : k.probe.capturing = false) (ps : Probes) :
    ps.takeTurn k = (true, ps) := by
  simp [takeTurn, h]

theorem takeTurn_eq (k : KnownProbe) (ps : Probes) :
    (ps.takeTurn k).2 = { ps with limiters := (ps.takeTurn k).2.limiters } := by
  unfold takeTurn
  split <;> rfl

end Probes
end LiveProbe
