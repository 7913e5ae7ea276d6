import Mathlib.Data.List.Forall2

/-!
# Normal forms of texts

Normalisation form KC over a database of characters: the full compatibility decomposition, the
canonical order of the marks, and the canonical composition.  What relates two texts character
by character relates their normal forms when the database does not tell related characters
apart.
-/

namespace SetadJang.Framework

open scoped Relator

/-- What normalisation reads from a database of characters. -/
structure CharacterData where
  /-- The full compatibility decomposition. -/
  decompose : Char → List Char
  combiningClass : Char → ℕ
  /-- The primary composite of two characters. -/
  compose : Char → Char → Option Char

/-- A composition on its way, each part with its last character first: what lies before the last
starter, that starter, and the marks behind it. -/
structure Composing where
  before : List Char
  starter : Option Char
  marks : List Char

def Composing.text (s : Composing) : List Char :=
  (s.marks ++ (s.starter.toList ++ s.before)).reverse

namespace CharacterData

section forms

variable (data : CharacterData)

/-- A mark moves before the marks of higher classes; the text has its last character first. -/
def insertMark (c : Char) : List Char → List Char
  | [] => [c]
  | d :: ds =>
      if 0 < data.combiningClass c ∧ data.combiningClass c < data.combiningClass d then
        d :: insertMark c ds
      else c :: d :: ds

/-- The canonical order. -/
def reorder (cs : List Char) : List Char :=
  (cs.foldl (fun out c => data.insertMark c out) []).reverse

/-- The composite of the last starter with a character that no mark blocks from it. -/
def composite (s : Composing) (c : Char) : Option Char :=
  if s.marks.head?.any fun mark => data.combiningClass c ≤ data.combiningClass mark then none
  else s.starter.bind fun starter => data.compose starter c

def composeStep (s : Composing) (c : Char) : Composing :=
  match data.composite s c with
  | some new => { s with starter := some new }
  | none =>
      if data.combiningClass c = 0 then
        ⟨s.marks ++ (s.starter.toList ++ s.before), some c, []⟩
      else { s with marks := c :: s.marks }

/-- The canonical composition. -/
def recompose (cs : List Char) : List Char := (cs.foldl data.composeStep ⟨[], none, []⟩).text

/-- `unicodedata.normalize("NFKC", text)`. -/
def nfkc (cs : List Char) : List Char := data.recompose (data.reorder (cs.flatMap data.decompose))

end forms

/-! ## Related texts -/

/-- The database does not tell related characters apart. -/
structure Respects (data : CharacterData) (R : Char → Char → Prop) : Prop where
  decompose : ∀ c d, R c d → List.Forall₂ R (data.decompose c) (data.decompose d)
  combiningClass : ∀ c d, R c d → data.combiningClass c = data.combiningClass d
  compose : ∀ c d c' d', R c d → R c' d' → Option.Rel R (data.compose c c') (data.compose d d')

section related

variable {data : CharacterData} {R : Char → Char → Prop}

theorem insertMark_rel (h : data.Respects R) {c d : Char} (hcd : R c d) {cs ds : List Char}
    (hrel : List.Forall₂ R cs ds) : List.Forall₂ R (data.insertMark c cs) (data.insertMark d ds) := by
  induction hrel with
  | nil => exact .cons hcd .nil
  | cons hhead htail ih =>
      rw [insertMark, insertMark, h.combiningClass _ _ hcd, h.combiningClass _ _ hhead]
      split
      · exact .cons hhead ih
      · exact .cons hcd (.cons hhead htail)

theorem reorder_rel (h : data.Respects R) {cs ds : List Char} (hrel : List.Forall₂ R cs ds) :
    List.Forall₂ R (data.reorder cs) (data.reorder ds) := by
  have hstep : ((List.Forall₂ R) ⇒ R ⇒ List.Forall₂ R) (fun out c => data.insertMark c out)
      (fun out c => data.insertMark c out) := fun _ _ hout _ _ hcd => insertMark_rel h hcd hout
  exact List.rel_reverse (List.rel_foldl hstep .nil hrel)

/-- Compositions that are related part by part. -/
structure ComposingRel (R : Char → Char → Prop) (s t : Composing) : Prop where
  before : List.Forall₂ R s.before t.before
  starter : Option.Rel R s.starter t.starter
  marks : List.Forall₂ R s.marks t.marks

theorem toList_rel {o p : Option Char} (h : Option.Rel R o p) :
    List.Forall₂ R o.toList p.toList := by
  cases h with
  | some h => exact .cons h .nil
  | none => exact .nil

theorem composite_rel (h : data.Respects R) {s t : Composing} (hrel : ComposingRel R s t)
    {c d : Char} (hcd : R c d) : Option.Rel R (data.composite s c) (data.composite t d) := by
  obtain ⟨before, starter, marks⟩ := s
  obtain ⟨before', starter', marks'⟩ := t
  obtain ⟨-, hstarter, hmarks⟩ := hrel
  have hblocked : (marks.head?.any fun mark => data.combiningClass c ≤ data.combiningClass mark) =
      marks'.head?.any fun mark => data.combiningClass d ≤ data.combiningClass mark := by
    cases hmarks with
    | nil => rfl
    | cons hhead _ =>
        simp only [List.head?_cons, Option.any_some, h.combiningClass _ _ hcd,
          h.combiningClass _ _ hhead]
  unfold composite
  dsimp only at hstarter ⊢
  rw [hblocked]
  split
  · exact .none
  · cases hstarter with
    | none => exact .none
    | some hs => exact h.compose _ _ _ _ hs hcd

theorem composeStep_rel (h : data.Respects R) {s t : Composing} (hrel : ComposingRel R s t)
    {c d : Char} (hcd : R c d) :
    ComposingRel R (data.composeStep s c) (data.composeStep t d) := by
  have hcomposite := composite_rel h hrel hcd
  unfold composeStep
  generalize data.composite s c = new at hcomposite
  generalize data.composite t d = new' at hcomposite
  cases hcomposite with
  | some hnew => exact ⟨hrel.before, .some hnew, hrel.marks⟩
  | none =>
      dsimp only
      rw [h.combiningClass _ _ hcd]
      split
      · exact ⟨List.rel_append hrel.marks (List.rel_append (toList_rel hrel.starter) hrel.before),
          .some hcd, .nil⟩
      · exact ⟨hrel.before, hrel.starter, .cons hcd hrel.marks⟩

/-- **Related texts have related normal forms.** -/
theorem nfkc_rel (h : data.Respects R) {cs ds : List Char} (hrel : List.Forall₂ R cs ds) :
    List.Forall₂ R (data.nfkc cs) (data.nfkc ds) := by
  have hordered := reorder_rel h (List.rel_flatMap hrel fun _ _ hcd => h.decompose _ _ hcd)
  have hstep : (ComposingRel R ⇒ R ⇒ ComposingRel R) data.composeStep data.composeStep :=
    fun _ _ hst _ _ hcd => composeStep_rel h hst hcd
  have hfinal := List.rel_foldl hstep (⟨.nil, .none, .nil⟩ : ComposingRel R ⟨[], none, []⟩ ⟨[], none, []⟩)
    hordered
  exact List.rel_reverse
    (List.rel_append hfinal.marks (List.rel_append (toList_rel hfinal.starter) hfinal.before))

end related

/-! ## Texts in normal form -/

/-- Starters that are their own decomposition and do not compose with one another. -/
structure Inert (data : CharacterData) (P : Char → Prop) : Prop where
  decompose : ∀ c, P c → data.decompose c = [c]
  combiningClass : ∀ c, P c → data.combiningClass c = 0
  compose : ∀ c d, P c → P d → data.compose c d = none

section inert

variable {data : CharacterData} {P : Char → Prop}

theorem reorder_inert (h : data.Inert P) {cs : List Char} (hcs : ∀ c ∈ cs, P c) :
    data.reorder cs = cs := by
  have hfold : ∀ out, cs.foldl (fun out c => data.insertMark c out) out = cs.reverse ++ out := by
    induction cs with
    | nil => exact fun _ => rfl
    | cons c cs ih =>
        intro out
        have hc : data.insertMark c out = c :: out := by
          cases out with
          | nil => rfl
          | cons d out =>
              rw [insertMark, h.combiningClass c (hcs c List.mem_cons_self), if_neg (by simp)]
        rw [List.foldl_cons, hc, ih fun c hmem => hcs c (List.mem_cons_of_mem _ hmem),
          List.reverse_cons, List.append_assoc]
        rfl
  rw [reorder, hfold, List.append_nil, List.reverse_reverse]

theorem recompose_inert (h : data.Inert P) {cs : List Char} (hcs : ∀ c ∈ cs, P c) :
    data.recompose cs = cs := by
  have hfold : ∀ s : Composing, s.marks = [] → (∀ starter ∈ s.starter, P starter) →
      (cs.foldl data.composeStep s).text = s.text ++ cs := by
    induction cs with
    | nil => exact fun s _ _ => (List.append_nil _).symm
    | cons c cs ih =>
        rintro ⟨before, starter, _⟩ rfl hstarter
        have hc := hcs c List.mem_cons_self
        have hstep : data.composeStep ⟨before, starter, []⟩ c =
            ⟨starter.toList ++ before, some c, []⟩ := by
          have hnone : data.composite ⟨before, starter, []⟩ c = none := by
            cases starter with
            | none => rfl
            | some starter => exact h.compose starter c (hstarter starter rfl) hc
          unfold composeStep
          rw [hnone]
          exact if_pos (h.combiningClass c hc)
        rw [List.foldl_cons, hstep, ih (fun c hmem => hcs c (List.mem_cons_of_mem _ hmem)) _ rfl]
        · simp [Composing.text]
        · intro d hd
          obtain rfl := Option.some.inj hd
          exact hc
  rw [recompose, hfold _ rfl fun _ hnone => absurd hnone (by simp)]
  rfl

/-- **A text of inert characters is in normal form.** -/
theorem nfkc_inert (h : data.Inert P) {cs : List Char} (hcs : ∀ c ∈ cs, P c) :
    data.nfkc cs = cs := by
  have hdecompose : cs.flatMap data.decompose = cs := by
    induction cs with
    | nil => rfl
    | cons c cs ih =>
        rw [List.flatMap_cons, h.decompose c (hcs c List.mem_cons_self),
          ih fun c hmem => hcs c (List.mem_cons_of_mem _ hmem)]
        rfl
  rw [nfkc, hdecompose, reorder_inert h hcs, recompose_inert h hcs]

end inert

/-! ## Characters that stay -/

section kept

variable {data : CharacterData} {P : Char → Prop}

theorem mem_insertMark {c d : Char} {cs : List Char} :
    d ∈ data.insertMark c cs ↔ d = c ∨ d ∈ cs := by
  induction cs with
  | nil => simp [insertMark]
  | cons e es ih =>
      rw [insertMark]
      split
      · rw [List.mem_cons, ih, List.mem_cons]
        exact or_left_comm
      · exact List.mem_cons

theorem mem_reorder {d : Char} {cs : List Char} : d ∈ data.reorder cs ↔ d ∈ cs := by
  have hfold : ∀ out, d ∈ cs.foldl (fun out c => data.insertMark c out) out ↔ d ∈ cs ∨ d ∈ out := by
    induction cs with
    | nil => simp
    | cons c cs ih =>
        intro out
        rw [List.foldl_cons, ih, mem_insertMark, List.mem_cons, or_left_comm, or_assoc]
  rw [reorder, List.mem_reverse, hfold]
  simp

/-- A step appends the character, or puts a composite in the text. -/
theorem composeStep_text (s : Composing) (c : Char) :
    (data.composeStep s c).text = s.text ++ [c] ∨
      ∃ starter new, data.compose starter c = some new ∧ new ∈ (data.composeStep s c).text := by
  unfold composeStep
  cases hcomposite : data.composite s c with
  | none =>
      left
      dsimp only
      split <;> simp [Composing.text]
  | some new =>
      right
      unfold composite at hcomposite
      split at hcomposite
      · cases hcomposite
      · obtain ⟨starter, -, hnew⟩ := Option.bind_eq_some_iff.mp hcomposite
        exact ⟨starter, new, hnew, by simp [Composing.text]⟩

theorem exists_mem_recompose (hP : ∀ c d e, data.compose c d = some e → P e) {cs : List Char}
    (h : ∃ d ∈ cs, P d) : ∃ d ∈ data.recompose cs, P d := by
  have hfold : ∀ s : Composing, (∃ d ∈ s.text ++ cs, P d) →
      ∃ d ∈ (cs.foldl data.composeStep s).text, P d := by
    clear h
    induction cs with
    | nil => exact fun s h => by rwa [List.append_nil] at h
    | cons c cs ih =>
        rintro s ⟨d, hmem, hd⟩
        rw [List.foldl_cons]
        apply ih
        rcases @composeStep_text data s c with htext | ⟨starter, new, hnew, hin⟩
        · exact ⟨d, by rwa [htext, List.append_assoc, List.singleton_append], hd⟩
        · exact ⟨new, List.mem_append_left _ hin, hP _ _ _ hnew⟩
  exact hfold _ h

/-- **A kind of characters that every composite belongs to is not lost.** -/
theorem exists_mem_nfkc (hP : ∀ c d e, data.compose c d = some e → P e) {cs : List Char}
    (h : ∃ c ∈ cs, ∃ d ∈ data.decompose c, P d) : ∃ d ∈ data.nfkc cs, P d := by
  obtain ⟨c, hc, d, hd, hPd⟩ := h
  exact exists_mem_recompose hP ⟨d, mem_reorder.mpr (List.mem_flatMap.mpr ⟨c, hc, hd⟩), hPd⟩

end kept

end CharacterData

end SetadJang.Framework
