import ValuePattern.Json
/-!
Streams of JSON documents. Documents stand one behind another, with blanks before each and behind the
last; one whose text does not show where it ends, such as a number, needs a blank behind it, or a
document that begins with a bracket, a brace or a quote. What a single document is, and which value it
has, is left open, as it is for the decoder to say.
-/
namespace ValuePattern.Json

/-- A blank between documents: a space, a tab, or one of two line ends. -/
def IsBlank (b : UInt8) : Prop := b ∈ ([0x20, 0x09, 0x0a, 0x0d] : List UInt8)

instance : DecidablePred IsBlank := fun b =>
  inferInstanceAs (Decidable (b ∈ ([0x20, 0x09, 0x0a, 0x0d] : List UInt8)))

/-- A row of blanks. -/
def AllBlank (row : List UInt8) : Prop := ∀ b ∈ row, IsBlank b

/-- The text of a string, an array or an object shows where it ends. -/
def ShowsEnd : Json → Prop
  | string _ | array _ | object _ => True
  | _ => False

/-- What ends a document that does not show where it ends: nothing at all, a blank, a quote, a bracket
or a brace. -/
def EndsBefore (rest : List UInt8) : Prop :=
  ∀ b ∈ rest.head?, IsBlank b ∨ b ∈ ([0x22, 0x5b, 0x7b] : List UInt8)

/-- Texts that hold documents and blanks alone, each with the values of its documents. -/
inductive Documents (IsDocument : List UInt8 → Json → Prop) : List UInt8 → List Json → Prop
  | blank {blanks} : AllBlank blanks → Documents IsDocument blanks []
  | document {blanks text json rest jsons} : AllBlank blanks → IsDocument text json →
      ShowsEnd json ∨ EndsBefore rest → Documents IsDocument rest jsons →
      Documents IsDocument (blanks ++ text ++ rest) (json :: jsons)

/-- A decoder gives the values of the documents in order, to the end. -/
def Yields (decode : Decoder) (IsDocument : List UInt8 → Json → Prop) : Prop :=
  ∀ bytes jsons, Documents IsDocument bytes jsons → decode ⟨bytes, none⟩ = ⟨jsons, none⟩

section Documents

variable {IsDocument : List UInt8 → Json → Prop} {a b blanks row : List UInt8}
variable {jsons others : List Json}

theorem allBlank_append (hrow : AllBlank row) (hblanks : AllBlank blanks) :
    AllBlank (row ++ blanks) :=
  fun b hb => (List.mem_append.mp hb).elim (hrow b) (hblanks b)

theorem Documents.behind_blanks (hblanks : AllBlank blanks) (h : Documents IsDocument b others) :
    Documents IsDocument (blanks ++ b) others := by
  cases h with
  | blank hrow => exact .blank (allBlank_append hblanks hrow)
  | @document row text json rest jsons hrow htext hend hrest =>
    rw [← List.append_assoc, ← List.append_assoc]
    exact .document (allBlank_append hblanks hrow) htext hend hrest

/-- What ends a document ends it too with blanks and anything else put behind. -/
theorem EndsBefore.append_blanks {rest : List UInt8} (h : EndsBefore rest) (hblanks : AllBlank blanks)
    (hne : blanks ≠ []) (b : List UInt8) : EndsBefore (rest ++ (blanks ++ b)) := by
  cases rest with
  | nil =>
    obtain ⟨c, row, rfl⟩ := List.exists_cons_of_ne_nil hne
    intro d hd
    obtain rfl := Option.some.inj hd
    exact .inl (hblanks c List.mem_cons_self)
  | cons c rest => exact h

/-- Documents with blanks between them and others are one text with all of them. -/
theorem Documents.append (ha : Documents IsDocument a jsons) (hblanks : AllBlank blanks)
    (hne : blanks ≠ []) (hb : Documents IsDocument b others) :
    Documents IsDocument (a ++ (blanks ++ b)) (jsons ++ others) := by
  have hbehind := hb.behind_blanks hblanks
  induction ha with
  | blank hrow => exact hbehind.behind_blanks hrow
  | @document row text json rest jsons hrow htext hend _ ih =>
    rw [List.append_assoc (row ++ text)]
    exact .document hrow htext (hend.imp_right fun h => h.append_blanks hblanks hne b) ih

end Documents

section Containers

variable {blanks rest : List UInt8} {jsons : List Json}

/-- The empty array and the empty object, as documents. -/
inductive IsEmptyContainer : List UInt8 → Json → Prop
  | array : IsEmptyContainer [0x5b, 0x5d] (.array [])
  | object : IsEmptyContainer [0x7b, 0x7d] (.object [])

/-- Reads empty containers up to anything else. -/
def readContainers : List UInt8 → Stream
  | [] => ⟨[], none⟩
  | 0x5b :: 0x5d :: rest =>
    let later := readContainers rest
    ⟨.array [] :: later.values, later.cause?⟩
  | 0x7b :: 0x7d :: rest =>
    let later := readContainers rest
    ⟨.object [] :: later.values, later.cause?⟩
  | b :: rest => if IsBlank b then readContainers rest else ⟨[], some "expected value"⟩

theorem readContainers_append (hblanks : AllBlank blanks) (rest : List UInt8) :
    readContainers (blanks ++ rest) = readContainers rest := by
  induction blanks with
  | nil => rfl
  | cons b blanks ih =>
    obtain ⟨hb, hbehind⟩ := List.forall_mem_cons.mp hblanks
    rw [List.cons_append, readContainers, if_pos hb, ih hbehind]
    · rintro rest rfl
      exact absurd hb (by decide)
    · rintro rest rfl
      exact absurd hb (by decide)

theorem yields_readContainers :
    Yields (fun input => readContainers input.bytes) IsEmptyContainer := by
  intro bytes jsons h
  dsimp only
  induction h with
  | @blank blanks hblanks =>
    rw [← List.append_nil blanks, readContainers_append hblanks, readContainers]
  | document hblanks htext _ _ ih =>
    rw [List.append_assoc, readContainers_append hblanks]
    cases htext with
    | array => simp only [List.cons_append, List.nil_append, readContainers, ih]
    | object => simp only [List.cons_append, List.nil_append, readContainers, ih]

theorem documents_array (h : Documents IsEmptyContainer rest jsons) :
    Documents IsEmptyContainer (0x5b :: 0x5d :: rest) (.array [] :: jsons) :=
  have hnothing : AllBlank [] := by simp [AllBlank]
  Documents.document hnothing IsEmptyContainer.array (.inl trivial) h

theorem documents_object (h : Documents IsEmptyContainer rest jsons) :
    Documents IsEmptyContainer (0x7b :: 0x7d :: rest) (.object [] :: jsons) :=
  have hnothing : AllBlank [] := by simp [AllBlank]
  Documents.document hnothing IsEmptyContainer.object (.inl trivial) h

end Containers

end ValuePattern.Json
