import LiveProbe.Host.Basic
import LiveProbe.Proofs.Table

/-!
Bodies of methods as the host holds them. Setting a body touches one method only; an interceptor
is set on a defined method alone, and taking one back changes its own method at most.
-/
namespace LiveProbe.Host

theorem body?_eq_get? (h : Host) (m : MethodName) :
    h.body? m = Table.get? m.name (h.methods m.typeName) := by
  unfold body? methods
  cases Table.get? m.typeName h.types <;> simp [Table.get?]

theorem methods_setTypes (h : Host) (typeName other : String) (bodies : List (String × Body)) :
    Host.methods { h with types := Table.insert typeName bodies h.types } other =
      if other = typeName then bodies else h.methods other := by
  unfold methods
  rw [Table.get?_insert]
  split <;> rfl

theorem body?_setBody_of_ne (h : Host) {m other : MethodName} (ne : other ≠ m) (body : Body) :
    (h.setBody m body).body? other = h.body? other := by
  rw [body?_eq_get?, body?_eq_get?, setBody, methods_setTypes]
  split
  · rename_i same
    have apart : other.name ≠ m.name := by
      intro eq
      cases other; cases m
      simp_all
    rw [Table.get?_insert_of_ne apart, same]
  · rfl

theorem isSome_body?_setBody (h : Host) {m : MethodName} (defined : (h.body? m).isSome = true)
    (body : Body) (other : MethodName) :
    ((h.setBody m body).body? other).isSome = (h.body? other).isSome := by
  by_cases same : other = m
  · subst same
    rw [body?_setBody, defined]
    rfl
  · rw [body?_setBody_of_ne h same]

theorem body?_define (h : Host) (typeName : String) (bodies : List (String × Body))
    (m : MethodName) :
    (h.define typeName bodies).body? m =
      if m.typeName = typeName then (Table.get? m.name bodies.reverse).or (h.body? m)
      else h.body? m := by
  rw [body?_eq_get?, body?_eq_get?, define, methods_setTypes]
  split
  · rename_i same
    rw [Table.get?_insertAll, same]
  · rfl

theorem body?_define_cases (h : Host) (typeName : String) (methods : List (String × Code))
    (m : MethodName) :
    let h' := h.define typeName (methods.map fun e => (e.1, .program e.2))
    (∃ code, m.typeName = typeName ∧ (m.name, code) ∈ methods ∧
      h'.body? m = some (.program code)) ∨ h'.body? m = h.body? m := by
  intro h'
  have body : h'.body? m = _ := body?_define h typeName _ m
  rw [body, ← List.map_reverse, Table.get?_map_values]
  split
  · rename_i own
    cases found : Table.get? m.name methods.reverse with
    | none => exact Or.inr rfl
    | some code =>
      have member := List.mem_reverse.mp (Table.mem_of_get? found)
      exact Or.inl ⟨code, own, member, rfl⟩
  · exact Or.inr rfl

def Plain (h : Host) : Prop := ∀ m body, h.body? m = some body → ∃ code, body = .program code

theorem Plain.define {h : Host} (plain : h.Plain) (typeName : String)
    (methods : List (String × Code)) :
    (h.define typeName (methods.map fun e => (e.1, .program e.2))).Plain := by
  intro m body found
  rcases body?_define_cases h typeName methods m with ⟨code, -, -, anew⟩ | same
  · exact ⟨code, Option.some.inj (found.symm.trans anew)⟩
  · exact plain m body (same.symm.trans found)

theorem interceptMethod_of_undefined {h : Host} {m : MethodName} (missing : h.body? m = none)
    (wrap : Body → Body) :
    ∃ detail, h.interceptMethod m wrap = (.error (.targetNotDefined detail), h) := by
  unfold interceptMethod
  unfold body? at missing
  split
  · exact ⟨_, rfl⟩
  · rename_i bodies known
    rw [known] at missing
    split
    · exact ⟨_, rfl⟩
    · rename_i saved found
      simp [found] at missing

theorem interceptMethod_of_defined {h : Host} {m : MethodName} {saved : Body}
    (defined : h.body? m = some saved) (wrap : Body → Body) :
    h.interceptMethod m wrap = (.ok ⟨m, (wrap saved).key?, saved⟩, h.setBody m (wrap saved)) := by
  unfold interceptMethod
  unfold body? at defined
  split
  · rename_i missing
    simp [missing] at defined
  · rename_i bodies known
    rw [known] at defined
    simp only [Option.bind_eq_bind, Option.bind_some] at defined
    simp [defined]

theorem restoreMethod_cases (h : Host) (handle : MethodHandle) :
    h.restoreMethod handle = h ∨
      ∃ body, h.body? handle.method = some body ∧ handle.installed.isSome = true ∧
        body.key? = handle.installed ∧
        h.restoreMethod handle = h.setBody handle.method handle.saved := by
  unfold restoreMethod
  split
  · rename_i body current
    split
    · rename_i own
      simp only [Bool.and_eq_true, beq_iff_eq] at own
      exact Or.inr ⟨body, current, own.1, own.2, rfl⟩
    · exact Or.inl rfl
  · exact Or.inl rfl

theorem body?_restoreMethod_of_ne (h : Host) {handle : MethodHandle} {other : MethodName}
    (ne : other ≠ handle.method) : (h.restoreMethod handle).body? other = h.body? other := by
  rcases restoreMethod_cases h handle with same | ⟨body, -, -, -, changed⟩
  · rw [same]
  · rw [changed, body?_setBody_of_ne h ne]

theorem isSome_body?_restoreMethod (h : Host) (handle : MethodHandle) (m : MethodName) :
    ((h.restoreMethod handle).body? m).isSome = (h.body? m).isSome := by
  rcases restoreMethod_cases h handle with same | ⟨body, current, -, -, changed⟩
  · rw [same]
  · rw [changed, isSome_body?_setBody h (by simp [current])]

theorem restoreMethod_eq (h : Host) (handle : MethodHandle) :
    ∃ types, h.restoreMethod handle = { h with types } := by
  rcases restoreMethod_cases h handle with same | ⟨body, -, -, -, changed⟩
  · exact ⟨h.types, same⟩
  · exact ⟨_, changed⟩

end LiveProbe.Host
