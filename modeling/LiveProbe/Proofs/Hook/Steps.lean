import LiveProbe.Proofs.Hook.Frame

/-!
The steps of a manager. Each keeps handles where they belong and the host's traces one for one
with the hooked lines, touches its own target only, and installs or removes as it says.
-/
namespace LiveProbe

theorem Hooks.slot_setSlot (h : Hooks) (m other : MethodName) (installation : Nat) :
    (h.setSlot m installation).slot other =
      if other = m then installation else h.slot other := by
  unfold slot setSlot
  rw [Table.get?_insert]
  split <;> rfl

theorem Hooks.slot_of_unknown {h : Hooks} {m : MethodName}
    (unknown : Table.contains m h.slots = false) : h.slot m = 0 := by
  rw [slot, Table.contains_eq_false_iff.mp unknown]
  rfl

theorem Host.installMethod_cases (h : Host) (m : MethodName) (wrap : Body → Body) :
    (∃ e, (h.refuses .installMethod (.method m) = some e ∨
          h.body? m = none ∧ e.isTargetNotDefined = true) ∧
        h.installMethod m wrap = (.error e, h)) ∨
      ∃ saved, h.refuses .installMethod (.method m) = none ∧ h.body? m = some saved ∧
        h.installMethod m wrap =
          (.ok ⟨m, (wrap saved).key?, saved⟩, h.setBody m (wrap saved)) := by
  unfold installMethod
  cases answer : h.refuses .installMethod (.method m) with
  | some e => exact Or.inl ⟨e, Or.inl rfl, rfl⟩
  | none =>
    cases current : h.body? m with
    | none =>
      obtain ⟨detail, refused⟩ := interceptMethod_of_undefined current wrap
      exact Or.inl ⟨_, Or.inr ⟨rfl, rfl⟩, refused⟩
    | some saved => exact Or.inr ⟨saved, rfl, rfl, interceptMethod_of_defined current wrap⟩

theorem Host.installLine_cases (h : Host) (unit : Option CompiledUnit) (l : SourceLine)
    (callback : Callback) :
    (∃ e, (h.refuses .installLine (.line l) = some e ∨ ∃ u, unit = some u ∧ h.isLoaded u = false) ∧
        h.installLine unit l callback = (.error e, h)) ∨
      (h.refuses .installLine (.line l) = none ∧ ∀ u, unit = some u → h.isLoaded u = true) ∧
        h.installLine unit l callback = (.ok ⟨h.lastId + 1, l.file, l.line⟩,
          { h with
            lastId := h.lastId + 1
            traces := h.traces ++
              [⟨h.lastId + 1, unit.map (·.id), l.line, some l, callback⟩] }) := by
  unfold installLine
  cases answer : h.refuses .installLine (.line l) with
  | some e => exact Or.inl ⟨e, Or.inl rfl, rfl⟩
  | none =>
    unfold interceptLine
    cases unit with
    | none => exact Or.inr ⟨⟨rfl, fun u h => by cases h⟩, rfl⟩
    | some u =>
      cases loaded : h.isLoaded u with
      | false =>
        simp only [Option.filter, loaded, Bool.not_false, if_true]
        exact Or.inl ⟨_, Or.inr ⟨u, rfl, loaded⟩, rfl⟩
      | true =>
        simp only [Option.filter, loaded, Bool.not_true, Bool.false_eq_true, if_false]
        refine Or.inr ⟨⟨trivial, fun v same => ?_⟩, rfl⟩
        cases same
        exact loaded

namespace Hooking

/-- Handles belong to the method that they are kept for, and the host's traces stand for the
hooked lines in their order, each under a number of its own. -/
structure Anchored (s : Hooking) : Prop where
  home : ∀ m i, Table.get? m s.hooks.methods = some i → i.handle.method = m
  traced : s.host.traces.map (fun t => (t.only, t.id)) =
    s.hooks.lines.map fun e => (some e.1, e.2.id)
  distinct : (s.host.traces.map (·.id)).Nodup
  bounded : ∀ t ∈ s.host.traces, t.id ≤ s.host.lastId
  lineKeys : (Table.keys s.hooks.lines).Nodup
  pendingMethodKeys : (Table.keys s.hooks.pendingMethods).Nodup
  pendingLineKeys : (Table.keys s.hooks.pendingLines).Nodup

theorem Anchored.of_methods {s s' : Hooking} (anchored : s.Anchored)
    (traces : s'.host.traces = s.host.traces) (lastId : s'.host.lastId = s.host.lastId)
    (lines : s'.hooks.lines = s.hooks.lines)
    (pendingMethods : s'.hooks.pendingMethods = s.hooks.pendingMethods)
    (pendingLines : s'.hooks.pendingLines = s.hooks.pendingLines)
    (home : ∀ m i, Table.get? m s'.hooks.methods = some i → i.handle.method = m) :
    s'.Anchored := by
  refine ⟨home, ?_, ?_, ?_, ?_, ?_, ?_⟩
  · rw [traces, lines]
    exact anchored.traced
  · rw [traces]
    exact anchored.distinct
  · rw [traces, lastId]
    exact anchored.bounded
  · rw [lines]
    exact anchored.lineKeys
  · rw [pendingMethods]
    exact anchored.pendingMethodKeys
  · rw [pendingLines]
    exact anchored.pendingLineKeys

section Methods

variable {s : Hooking} {m : MethodName}

theorem releaseMethod_of_free (free : Table.get? m s.hooks.methods = none) :
    s.releaseMethod m = s := by
  simp [releaseMethod, free]

theorem releaseMethod_of_hooked {installed : InstalledMethod}
    (hooked : Table.get? m s.hooks.methods = some installed) :
    (s.releaseMethod m).host = (s.host.removeMethod installed.handle).2 ∧
      (s.releaseMethod m).hooks = { s.hooks with
        methods := Table.erase m s.hooks.methods
        slots := (s.releaseMethod m).hooks.slots } ∧
      ∀ other, (s.releaseMethod m).hooks.slot other =
        if other = m then 0 else s.hooks.slot other := by
  unfold releaseMethod
  rw [hooked]
  dsimp only
  by_cases known : Table.contains m s.hooks.slots = true
  · simp only [known, if_true]
    split <;> rename_i removed <;> refine ⟨?_, rfl, fun o => Hooks.slot_setSlot s.hooks m o 0⟩
    · exact (congrArg Prod.snd removed).symm
    · exact (congrArg Prod.snd removed).symm
  · have empty : ∀ other, s.hooks.slot other = if other = m then 0 else s.hooks.slot other := by
      intro other
      split
      · rename_i same
        rw [same, Hooks.slot_of_unknown (by simpa using known)]
      · rfl
    simp only [known, Bool.false_eq_true, if_false]
    split <;> rename_i removed <;> refine ⟨?_, rfl, empty⟩
    · exact (congrArg Prod.snd removed).symm
    · exact (congrArg Prod.snd removed).symm

theorem numberInstallation_parts :
    (s.numberInstallation m).2.host = s.host ∧
      (s.numberInstallation m).1 = s.hooks.lastInstallation + 1 ∧
      (s.numberInstallation m).2.hooks = { s.hooks with
        lastInstallation := s.hooks.lastInstallation + 1
        slots := (s.numberInstallation m).2.hooks.slots } ∧
      ∀ other, (s.numberInstallation m).2.hooks.slot other = s.hooks.slot other := by
  unfold numberInstallation
  dsimp only
  by_cases known : Table.contains m s.hooks.slots = true
  · simp only [known, if_true]
    exact ⟨trivial, trivial, trivial, fun other => rfl⟩
  · simp only [known, Bool.false_eq_true, if_false]
    refine ⟨trivial, trivial, rfl, fun other => ?_⟩
    rw [Hooks.slot_setSlot]
    split
    · rename_i same
      rw [same, Hooks.slot_of_unknown (by simpa using known)]
    · rfl

def prepareMethod (m : MethodName) (s : Hooking) : Hooking :=
  ((s.releaseMethod m).numberInstallation m).2

theorem prepareMethod_of_free (free : Table.get? m s.hooks.methods = none) :
    (s.prepareMethod m).host = s.host ∧
      (s.prepareMethod m).hooks = { s.hooks with
        lastInstallation := s.hooks.lastInstallation + 1
        slots := (s.prepareMethod m).hooks.slots } ∧
      ∀ other, (s.prepareMethod m).hooks.slot other = s.hooks.slot other := by
  unfold prepareMethod
  rw [releaseMethod_of_free free]
  obtain ⟨host, -, rest, slots⟩ := numberInstallation_parts (s := s) (m := m)
  exact ⟨host, rest, slots⟩

theorem prepareMethod_of_hooked {installed : InstalledMethod}
    (hooked : Table.get? m s.hooks.methods = some installed) :
    (s.prepareMethod m).host = (s.host.removeMethod installed.handle).2 ∧
      (s.prepareMethod m).hooks = { s.hooks with
        methods := Table.erase m s.hooks.methods
        lastInstallation := s.hooks.lastInstallation + 1
        slots := (s.prepareMethod m).hooks.slots } ∧
      ∀ other, (s.prepareMethod m).hooks.slot other =
        if other = m then 0 else s.hooks.slot other := by
  unfold prepareMethod
  obtain ⟨host, rest, slots⟩ := releaseMethod_of_hooked hooked
  obtain ⟨host', -, rest', slots'⟩ := numberInstallation_parts (s := s.releaseMethod m) (m := m)
  refine ⟨host'.trans host, ?_, fun other => (slots' other).trans (slots other)⟩
  rw [rest', rest]

theorem get?_prepareMethod (s : Hooking) (m other : MethodName) :
    Table.get? other (s.prepareMethod m).hooks.methods =
      if other = m then none else Table.get? other s.hooks.methods := by
  cases hooked : Table.get? m s.hooks.methods with
  | none =>
    rw [(prepareMethod_of_free hooked).2.1]
    split
    · rename_i same
      rw [same]
      exact hooked
    · rfl
  | some installed =>
    rw [(prepareMethod_of_hooked hooked).2.1]
    exact Table.get?_erase m other s.hooks.methods

theorem prepareMethod_frame (anchored : s.Anchored) (m : MethodName) :
    Frame (.method m) s (s.prepareMethod m) := by
  cases hooked : Table.get? m s.hooks.methods with
  | none =>
    obtain ⟨host, rest, slots⟩ := prepareMethod_of_free hooked
    refine Frame.of_method ?_ ?_ ?_ ?_ ?_ ?_ (fun other _ => slots other)
    · rw [host]
      exact Host.BodyFrame.refl m s.host
    all_goals rw [rest]
    all_goals exact fun _ _ => rfl
  | some installed =>
    obtain ⟨host, rest, slots⟩ := prepareMethod_of_hooked hooked
    refine Frame.of_method ?_ ?_ ?_ ?_ (fun other ne => ?_) ?_ (fun other ne => ?_)
    · rw [host]
      exact anchored.home m installed hooked ▸ Host.BodyFrame.removeMethod s.host installed.handle
    · rw [rest]
    · rw [rest]
    · rw [rest]
    · rw [get?_prepareMethod, if_neg ne]
    · rw [rest]
      exact fun _ _ => rfl
    · rw [slots, if_neg ne]

theorem prepareMethod_anchored (anchored : s.Anchored) (m : MethodName) :
    (s.prepareMethod m).Anchored := by
  have home : ∀ other i, Table.get? other (s.prepareMethod m).hooks.methods = some i →
      i.handle.method = other := by
    intro other i found
    rw [get?_prepareMethod] at found
    split at found
    · cases found
    · exact anchored.home other i found
  cases hooked : Table.get? m s.hooks.methods with
  | none =>
    obtain ⟨host, rest, -⟩ := prepareMethod_of_free hooked
    refine anchored.of_methods ?_ ?_ ?_ ?_ ?_ home <;> first | rw [host] | rw [rest]
  | some installed =>
    obtain ⟨host, rest, -⟩ := prepareMethod_of_hooked hooked
    have bodies := (Host.BodyFrame.removeMethod s.host installed.handle).rest
    refine anchored.of_methods ?_ ?_ ?_ ?_ ?_ home <;> first | rw [host, bodies] | rw [rest]

theorem hookMethod_cases (s : Hooking) (m : MethodName) (callback : Callback) :
    let before := s.prepareMethod m
    let installation := (s.releaseMethod m).hooks.lastInstallation + 1
    let body := Body.hooked before.hooks.manager m installation callback
    (∃ e, (before.host.refuses .installMethod (.method m) = some e ∨
          before.host.body? m = none ∧ e.isTargetNotDefined = true) ∧
        s.hookMethod m callback = (.error e, before)) ∨
      ∃ saved, before.host.refuses .installMethod (.method m) = none ∧
        before.host.body? m = some saved ∧
        s.hookMethod m callback = (.ok (), { before with
          host := before.host.setBody m (body saved)
          hooks := { before.hooks.setSlot m installation with
            methods := Table.insert m ⟨installation, ⟨m, (body saved).key?, saved⟩⟩
              before.hooks.methods } }) := by
  intro before installation body
  have numbered : (s.releaseMethod m).numberInstallation m = (installation, before) :=
    Prod.ext numberInstallation_parts.2.1 rfl
  unfold hookMethod
  rw [numbered]
  dsimp only
  rcases Host.installMethod_cases before.host m body with
    ⟨e, reason, refused⟩ | ⟨saved, willing, current, done⟩
  · left
    exact ⟨e, reason, by rw [refused]⟩
  · right
    exact ⟨saved, willing, current, by rw [done]; rfl⟩

theorem unhookMethod_cases {installed : InstalledMethod}
    (hooked : Table.get? m s.hooks.methods = some installed) :
    (∃ e, s.host.refuses .removeMethod (.method installed.handle.method) = some e ∧
        s.unhookMethod m = (.error e, s)) ∨
      (s.unhookMethod m).1 = .ok () ∧
        (s.unhookMethod m).2.host = s.host.restoreMethod installed.handle ∧
        (s.unhookMethod m).2.hooks = { s.hooks with
          methods := Table.erase m s.hooks.methods
          slots := (s.unhookMethod m).2.hooks.slots } ∧
        ∀ other, (s.unhookMethod m).2.hooks.slot other =
          if other = m ∧ Table.get? m s.hooks.slots = some installed.installation then 0
          else s.hooks.slot other := by
  unfold unhookMethod
  rw [hooked]
  dsimp only
  unfold Host.removeMethod
  cases answer : s.host.refuses .removeMethod (.method installed.handle.method) with
  | some e => exact Or.inl ⟨e, rfl, rfl⟩
  | none =>
    right
    dsimp only
    by_cases current : Table.get? m s.hooks.slots = some installed.installation
    · rw [if_pos current]
      refine ⟨rfl, rfl, rfl, fun other => ?_⟩
      simp only [current, and_true]
      exact Hooks.slot_setSlot s.hooks m other 0
    · rw [if_neg current]
      refine ⟨rfl, rfl, rfl, fun other => ?_⟩
      simp only [current, and_false, if_false]
      rfl

end Methods

end Hooking
end LiveProbe
