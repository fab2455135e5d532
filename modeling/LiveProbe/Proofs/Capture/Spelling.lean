import LiveProbe.Capture.Redactor
import LiveProbe.Proofs.Text.Trimming
import Mathlib

/-!
The spellings of a name. Names of ASCII characters with no blank between others are told apart by
their skeletons alone, and have the same skeleton exactly if they can be respelled into each other:
by separators that come or go anywhere, by the case of letters, and by blanks around the name.
-/
namespace LiveProbe

open Text (isBlank Strips)

namespace Spelling

variable {name other core word : List Char} {c : Char}

def Reduces (name word : List Char) : Prop :=
  ∃ core, Strips name core ∧ word = (Text.lower core).filter fun c => !isNameSeparator c

def Ascii (name : List Char) : Prop := ∀ c ∈ name, c.toNat < 0x80

/-- Of ASCII characters, and with no blank between others. -/
structure Plain (name : List Char) : Prop where
  ascii : Ascii name
  solid : ∃ before core after, name = before ++ core ++ after ∧
    (∀ c ∈ before, isBlank c = true) ∧ (∀ c ∈ core, isBlank c = false) ∧
    ∀ c ∈ after, isBlank c = true

/-! A single change that leaves the skeleton as it is. -/

inductive Edit : List Char → List Char → Prop where
  | separator {before c after} (separator : isNameSeparator c = true) :
      Edit (before ++ c :: after) (before ++ after)
  | lower {before after} {c : Char} : Edit (before ++ c :: after) (before ++ c.toLower :: after)
  | blankBefore {c rest} (blank : isBlank c = true) : Edit (c :: rest) rest
  | blankAfter {c rest} (blank : isBlank c = true) : Edit (rest ++ [c]) rest

/-- Changes of plain names, one after the other and to and fro. -/
def Respelled : List Char → List Char → Prop :=
  Relation.EqvGen fun name other => Plain name ∧ Plain other ∧ Edit name other

/-! Letters are neither blanks nor separators, in either case. -/

theorem isBlank_of_visible (low : 0x21 ≤ c.toNat) (high : c.toNat < 0x80) : isBlank c = false := by
  simp only [isBlank, Text.inRanges, Text.blankRanges, List.any_cons, List.any_nil]
  simp
  omega

theorem bounds_of_isAlpha (letter : c.isAlpha = true) :
    65 ≤ c.toNat ∧ c.toNat ≤ 90 ∨ 97 ≤ c.toNat ∧ c.toNat ≤ 122 := by
  simpa [Char.isAlpha, Char.isUpper, Char.isLower, UInt32.le_iff_toNat_le] using letter

theorem isBlank_of_isAlpha (letter : c.isAlpha = true) : isBlank c = false := by
  have bounds := bounds_of_isAlpha letter
  exact isBlank_of_visible (by omega) (by omega)

theorem isNameSeparator_of_isAlpha (letter : c.isAlpha = true) : isNameSeparator c = false := by
  have apart : ∀ d : Char, d.isAlpha = false → c ≠ d := by
    rintro d other rfl
    rw [letter] at other
    cases other
  simp [isNameSeparator, apart '_' (by decide), apart '$' (by decide), apart '@' (by decide)]

theorem toLower_of_not_isAlpha (other : c.isAlpha = false) : c.toLower = c := by
  refine Char.toLower_eq_of_not_isUpper fun upper => ?_
  simp [Char.isAlpha, upper] at other

theorem toNat_toLower_lt (small : c.toNat < 0x80) : c.toLower.toNat < 0x80 := by
  cases letter : c.isAlpha with
  | false => rwa [toLower_of_not_isAlpha letter]
  | true =>
    have bounds := bounds_of_isAlpha (c := c.toLower) (by simpa using letter)
    omega

theorem isBlank_toLower (c : Char) : isBlank c.toLower = isBlank c := by
  cases letter : c.isAlpha with
  | false => rw [toLower_of_not_isAlpha letter]
  | true =>
    rw [isBlank_of_isAlpha letter, isBlank_of_isAlpha (by simpa using letter)]

theorem isNameSeparator_toLower (c : Char) : isNameSeparator c.toLower = isNameSeparator c := by
  cases letter : c.isAlpha with
  | false => rw [toLower_of_not_isAlpha letter]
  | true =>
    rw [isNameSeparator_of_isAlpha letter, isNameSeparator_of_isAlpha (by simpa using letter)]

/-! What is left of a name. -/

theorem reduces_iff : Reduces name word ↔ skeleton (String.ofList name) = String.ofList word := by
  simp only [Reduces, skeleton, String.toList_ofList, String.ofList_inj, ← Text.trim_eq_iff,
    exists_eq_left']
  exact eq_comm

/-- The letters of a plain name in lowercase, with all else that is neither blank nor separator. -/
def letters (name : List Char) : List Char :=
  (name.filter fun c => !isBlank c && !isNameSeparator c).map Char.toLower

theorem letters_around {before after : List Char} (blankBefore : ∀ c ∈ before, isBlank c = true)
    (blankAfter : ∀ c ∈ after, isBlank c = true) :
    letters (before ++ core ++ after) = letters core := by
  have nothing : ∀ {blanks : List Char}, (∀ c ∈ blanks, isBlank c = true) →
      letters blanks = [] := by
    intro blanks blank
    simp only [letters, List.map_eq_nil_iff]
    exact List.filter_eq_nil_iff.mpr fun c member => by simp [blank c member]
  have parts : letters (before ++ core ++ after) =
      letters before ++ letters core ++ letters after := by simp [letters]
  rw [parts, nothing blankBefore, nothing blankAfter, List.nil_append, List.append_nil]

theorem Plain.reduces_iff (plain : Plain name) : Reduces name word ↔ word = letters name := by
  obtain ⟨before, core, after, rfl, blankBefore, solid, blankAfter⟩ := plain.solid
  have strips : Strips (before ++ core ++ after) core := by
    refine ⟨before, after, rfl, blankBefore, blankAfter, ?_, ?_⟩
    · exact fun c member => solid c (List.mem_of_mem_head? member)
    · exact fun c member => solid c (List.mem_of_mem_getLast? member)
  have ascii : ∀ c ∈ core, c.toNat < 0x80 := fun c member => plain.ascii c (by simp [member])
  have reduced : (Text.lower core).filter (fun c => !isNameSeparator c) = letters core := by
    have kept : core.filter (fun c => !isBlank c && !isNameSeparator c) =
        core.filter fun c => !isNameSeparator c :=
      List.filter_congr fun c member => by simp [solid c member]
    simp [letters, Text.lower_of_ascii ascii, kept, List.filter_map, Function.comp_def,
      isNameSeparator_toLower]
  rw [letters_around blankBefore blankAfter]
  simp only [Reduces, ← Text.trim_eq_iff, Text.trim_of_strips strips, exists_eq_left', reduced]

theorem letters_of_edit (edit : Edit name other) : letters other = letters name := by
  cases edit with
  | separator separator => simp [letters, separator]
  | @lower before after c =>
    have kept : (!isBlank c.toLower && !isNameSeparator c.toLower) =
        (!isBlank c && !isNameSeparator c) := by
      rw [isBlank_toLower, isNameSeparator_toLower]
    cases keeps : !isBlank c && !isNameSeparator c <;>
      simp only [letters, List.filter_append, List.filter_cons, kept, keeps] <;> simp
  | blankBefore blank => simp [letters, blank]
  | blankAfter blank => simp [letters, blank]

theorem letters_of_respelled (respelled : Respelled name other) : letters other = letters name := by
  induction respelled with
  | rel _ _ change => exact letters_of_edit change.2.2
  | refl => rfl
  | symm _ _ _ ih => exact ih.symm
  | trans _ _ _ _ _ first second => exact second.trans first

/-! Every plain name can be respelled into its letters: first the blanks around it go, then the
separators go and the letters become small from the front to the end. -/

theorem Plain.of_solid (ascii : Ascii core) (solid : ∀ c ∈ core, isBlank c = false) : Plain core :=
  ⟨ascii, [], core, [], by simp, by simp, solid, by simp⟩

theorem respelled_of_edit (plain : Plain name) (plain' : Plain other) (edit : Edit name other) :
    Respelled name other := .rel _ _ ⟨plain, plain', edit⟩

theorem respelled_before {before after : List Char} (ascii : Ascii (before ++ core ++ after))
    (blankBefore : ∀ c ∈ before, isBlank c = true) (solid : ∀ c ∈ core, isBlank c = false)
    (blankAfter : ∀ c ∈ after, isBlank c = true) :
    Respelled (before ++ core ++ after) (core ++ after) := by
  induction before with
  | nil => exact .refl _
  | cons b before ih =>
    have ascii' : Ascii (before ++ core ++ after) :=
      fun c member => ascii c (List.mem_cons_of_mem b member)
    have blanks : ∀ c ∈ before, isBlank c = true :=
      fun c member => blankBefore c (List.mem_cons_of_mem b member)
    refine .trans _ _ _ (respelled_of_edit ?_ ?_ (.blankBefore (blankBefore b (by simp))))
      (ih ascii' blanks)
    · exact ⟨ascii, b :: before, core, after, rfl, blankBefore, solid, blankAfter⟩
    · exact ⟨ascii', before, core, after, rfl, blanks, solid, blankAfter⟩

theorem respelled_after {after : List Char} (ascii : Ascii (core ++ after))
    (solid : ∀ c ∈ core, isBlank c = false) (blankAfter : ∀ c ∈ after, isBlank c = true) :
    Respelled (core ++ after) core := by
  induction after using List.reverseRecOn with
  | nil =>
    rw [List.append_nil]
    exact .refl _
  | append_singleton after b ih =>
    have ascii' : Ascii (core ++ after) := by
      intro c member
      exact ascii c (by rw [← List.append_assoc]; exact List.mem_append_left _ member)
    have blanks : ∀ c ∈ after, isBlank c = true :=
      fun c member => blankAfter c (List.mem_append_left _ member)
    refine .trans _ (core ++ after) _ (respelled_of_edit ?_ ?_ ?_) (ih ascii' blanks)
    · exact ⟨ascii, [], core, after ++ [b], by simp, by simp, solid, blankAfter⟩
    · exact ⟨ascii', [], core, after, by simp, by simp, solid, blanks⟩
    · rw [← List.append_assoc]
      exact .blankAfter (blankAfter b (by simp))

theorem respelled_core (done : List Char) (ascii : Ascii (done ++ core))
    (solid : ∀ c ∈ done ++ core, isBlank c = false) :
    Respelled (done ++ core) (done ++ letters core) := by
  induction core generalizing done with
  | nil => exact .refl _
  | cons c core ih =>
    have plain : Plain (done ++ c :: core) := .of_solid ascii solid
    cases separator : isNameSeparator c with
    | true =>
      have ascii' : Ascii (done ++ core) := fun d member => ascii d (by grind)
      have solid' : ∀ d ∈ done ++ core, isBlank d = false := fun d member => solid d (by grind)
      have dropped : letters (c :: core) = letters core := by simp [letters, separator]
      have change := respelled_of_edit plain (.of_solid ascii' solid') (.separator separator)
      rw [dropped]
      exact .trans _ _ _ change (ih done ascii' solid')
    | false =>
      have stays : ∀ {P : Char → Prop}, (P c → P c.toLower) → (∀ d ∈ done ++ c :: core, P d) →
          ∀ d ∈ done ++ [c.toLower] ++ core, P d := by
        intro P lower all d member
        rcases List.mem_append.mp member with front | back
        · rcases List.mem_append.mp front with old | new
          · exact all d (List.mem_append_left _ old)
          · rw [List.mem_singleton.mp new]
            exact lower (all c (by simp))
        · exact all d (by simp [back])
      have ascii' : Ascii (done ++ [c.toLower] ++ core) := stays toNat_toLower_lt ascii
      have solid' : ∀ d ∈ done ++ [c.toLower] ++ core, isBlank d = false :=
        stays (fun shown => (isBlank_toLower c).trans shown) solid
      have kept : done ++ letters (c :: core) = done ++ [c.toLower] ++ letters core := by
        simp [letters, separator, solid c (by simp)]
      have edit : Edit (done ++ c :: core) (done ++ [c.toLower] ++ core) := by
        rw [List.append_assoc]
        exact .lower
      have change := respelled_of_edit plain (.of_solid ascii' solid') edit
      rw [kept]
      exact .trans _ _ _ change (ih _ ascii' solid')

theorem Plain.respelled_letters (plain : Plain name) : Respelled name (letters name) := by
  obtain ⟨before, core, after, rfl, blankBefore, solid, blankAfter⟩ := plain.solid
  rw [letters_around blankBefore blankAfter]
  have ascii : Ascii core := fun c member => plain.ascii c (by simp [member])
  exact .trans _ _ _ (respelled_before plain.ascii blankBefore solid blankAfter)
    (.trans _ _ _
      (respelled_after (fun c member => plain.ascii c (by grind)) solid blankAfter)
      (respelled_core [] ascii solid))

theorem Plain.respelled_iff (plain : Plain name) (plain' : Plain other) :
    Respelled name other ↔ ∃ word, Reduces name word ∧ Reduces other word := by
  simp only [plain.reduces_iff, plain'.reduces_iff, exists_eq_left]
  constructor
  · exact fun respelled => (letters_of_respelled respelled).symm
  · intro same
    refine .trans _ _ _ plain.respelled_letters ?_
    rw [same]
    exact .symm _ _ plain'.respelled_letters

def isVisible (c : Char) : Bool := 0x21 ≤ c.toNat && c.toNat < 0x80

theorem solid_of_visible (text : List Char) (visible : text.all isVisible = true) :
    Ascii text ∧ ∀ c ∈ text, isBlank c = false := by
  have each : ∀ c ∈ text, 0x21 ≤ c.toNat ∧ c.toNat < 0x80 := by simpa [isVisible] using visible
  exact ⟨fun c member => (each c member).2,
    fun c member => isBlank_of_visible (each c member).1 (each c member).2⟩

end Spelling

open Spelling

theorem plain_of_builtinNames : ∀ entry ∈ builtinNames, Plain entry.toList := by
  have checked : builtinNames.all fun entry => entry.toList.all isVisible := by decide +kernel
  intro entry listed
  obtain ⟨ascii, solid⟩ := solid_of_visible _ (List.all_eq_true.mp checked entry listed)
  exact .of_solid ascii solid

namespace Redactor

/-- A name is redacted if the same is left of it as of a listed name. Among plain names the
redacted ones are the spellings of the listed ones, so all spellings of a name fare alike. -/
theorem redactsName_spelling (names types : List String) :
    (∀ name, (ofNames names types).redactsName name = true ↔ ∃ entry ∈ builtinNames ++ names,
      ∃ word, Reduces entry.toList word ∧ Reduces name.toList word) ∧
    (∀ name other, Plain name.toList → Plain other.toList →
      (Respelled name.toList other.toList ↔
        ∃ word, Reduces name.toList word ∧ Reduces other.toList word) ∧
      (Respelled name.toList other.toList →
        (ofNames names types).redactsName name = (ofNames names types).redactsName other)) ∧
    ((∀ configured ∈ names, Plain configured.toList) → ∀ name, Plain name.toList →
      ((ofNames names types).redactsName name = true ↔
        ∃ entry ∈ builtinNames ++ names, Respelled entry.toList name.toList)) := by
  have common : ∀ one two : String, skeleton one = skeleton two ↔
      ∃ word, Reduces one.toList word ∧ Reduces two.toList word := by
    intro one two
    simp only [reduces_iff, String.ofList_toList]
    constructor
    · exact fun same => ⟨(skeleton one).toList, by simp, by simp [same]⟩
    · rintro ⟨word, first, second⟩
      rw [first, second]
  have law : ∀ name, (ofNames names types).redactsName name = true ↔ ∃ entry ∈ builtinNames ++ names,
      ∃ word, Reduces entry.toList word ∧ Reduces name.toList word := by
    intro name
    simp only [← common, redactsName, ofNames, List.contains_iff_mem, List.mem_map]
  refine ⟨law, fun name other plain plain' => ?_, fun configured name plain => ?_⟩
  · refine ⟨plain.respelled_iff plain', fun respelled => ?_⟩
    have same := (common name other).mpr ((plain.respelled_iff plain').mp respelled)
    rw [redactsName, redactsName, same]
  · rw [law]
    refine exists_congr fun entry => and_congr_right fun listed => ?_
    have listedPlain : Plain entry.toList := by
      rcases List.mem_append.mp listed with builtin | own
      · exact plain_of_builtinNames entry builtin
      · exact configured entry own
    exact (listedPlain.respelled_iff plain).symm

/-- A spelling with blanks before and after it. -/
theorem redactsName_spelling_padded :
    let r := Redactor.ofNames ["Ssh_Pass"] []
    (∀ configured ∈ ["Ssh_Pass"], Plain configured.toList) ∧ Plain "\t $S_s@h_PASS ".toList ∧
      Respelled "Ssh_Pass".toList "\t $S_s@h_PASS ".toList ∧
      r.redactsName "\t $S_s@h_PASS " = r.redactsName "Ssh_Pass" ∧
      r.redactsName "\t $S_s@h_PASS " = true := by
  have configured : Plain "Ssh_Pass".toList := by
    obtain ⟨ascii, solid⟩ := solid_of_visible "Ssh_Pass".toList (by decide +kernel)
    exact .of_solid ascii solid
  have padded : Plain "\t $S_s@h_PASS ".toList := by
    obtain ⟨-, solid⟩ := solid_of_visible "$S_s@h_PASS".toList (by decide +kernel)
    have blank : isBlank '\t' = true ∧ isBlank ' ' = true := ⟨rfl, rfl⟩
    exact ⟨by simp [Ascii], ['\t', ' '], _, [' '], rfl, by simp [blank], solid, by simp [blank]⟩
  obtain ⟨-, pairs, listed⟩ := redactsName_spelling ["Ssh_Pass"] []
  have respelled : Respelled "Ssh_Pass".toList "\t $S_s@h_PASS ".toList :=
    (configured.respelled_iff padded).mpr ⟨"sshpass".toList,
      configured.reduces_iff.mpr (by decide +kernel), padded.reduces_iff.mpr (by decide +kernel)⟩
  exact ⟨by simpa using configured, padded, respelled,
    ((pairs _ _ configured padded).2 respelled).symm,
    (listed (by simpa using configured) _ padded).mpr ⟨"Ssh_Pass", by simp, respelled⟩⟩

end Redactor
end LiveProbe
