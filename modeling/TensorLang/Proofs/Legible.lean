import TensorLang.Proofs.Decimal.DistinctNumbers
import TensorLang.Proofs.Tensor.Text
import TensorLang.Tensor.Type
import TensorLang.Token.Lexer

/-!
# Legible texts

A text may stand in front of other text.  It is legible when the place where it ends can be found
and what it stands for can be told.  Words and numbers end where a character follows that they
cannot contain; texts in brackets end by themselves.
-/

namespace TensorLang

/-- What follows a text does not go on with a character of its kind. -/
def Breaks (part : Char → Bool) (rest : List Char) : Prop :=
  ∀ next ∈ rest.head?, part next = false

/-- If two texts start alike up to where characters of their kind end, then the texts are the same
part of both, and something follows from that. -/
def Tells (part : Char → Bool) (fact : Prop) (first second : String) : Prop :=
  ∀ ⦃rest others : List Char⦄, Breaks part rest → Breaks part others →
    first.toList ++ rest = second.toList ++ others → fact ∧ rest = others

/-- The text of a thing tells the thing. -/
def Legible {α : Type} (valid : α → Prop) (part : Char → Bool) (text : α → String) : Prop :=
  ∀ ⦃first second : α⦄, valid first → valid second →
    Tells part (first = second) (text first) (text second)

/-- The text starts with a character of a kind. -/
def Begins (kind : Char → Bool) (text : String) : Prop :=
  ∃ start tail, text.toList = start :: tail ∧ kind start = true

variable {α : Type} {valid : α → Prop} {part kind : Char → Bool} {text : α → String}
variable {fact : Prop} {first second : String} {rest others : List Char}

theorem Breaks.mono {wide : Char → Bool} (wider : ∀ char, part char = true → wide char = true)
    (breaks : Breaks wide rest) : Breaks part rest := by
  intro next head
  by_contra contains
  have held := wider next (Bool.eq_true_of_not_eq_false contains)
  rw [breaks next head] at held
  cases held

theorem Breaks.nil : Breaks part [] := fun _ head => by cases head

theorem Breaks.never (rest : List Char) : Breaks (fun _ => false) rest := fun _ _ => rfl

theorem Breaks.literal {front : String} {char : Char} (starts : front.toList.head? = some char)
    (apart : part char = false) : Breaks part (front.toList ++ rest) := by
  intro next head
  rw [List.head?_append, starts] at head
  obtain rfl := Option.some.inj head
  exact apart

/-- A character that no text of a kind contains is another one than those of the kind. -/
theorem bne_of_part {stop : Char} (apart : part stop = false) (char : Char)
    (held : part char = true) : (char != stop) = true := by
  rw [bne_iff_ne]
  rintro rfl
  rw [apart] at held
  cases held

theorem Tells.mono {wide : Char → Bool} (tells : Tells part fact first second)
    (wider : ∀ char, part char = true → wide char = true) : Tells wide fact first second :=
  fun _ _ breaks also same => tells (breaks.mono wider) (also.mono wider) same

theorem Tells.imp {other : Prop} (tells : Tells part fact first second) (weaker : fact → other) :
    Tells part other first second :=
  fun _ _ breaks also same => (tells breaks also same).imp_left weaker

/-- A text that ends by itself may have anything after it. -/
theorem Tells.anywhere (tells : Tells (fun _ => false) fact first second) :
    Tells part fact first second :=
  tells.mono fun _ never => by cases never

/-- A text ends at the latest where a character stands that it cannot contain. -/
theorem Tells.until {stop : Char} (tells : Tells part fact first second)
    (apart : part stop = false) : Tells (· != stop) fact first second :=
  tells.mono (bne_of_part apart)

theorem Legible.restrict {narrow : α → Prop} (legible : Legible valid part text)
    (narrower : ∀ item, narrow item → valid item) : Legible narrow part text :=
  fun _ _ first_narrow second_narrow =>
    legible (narrower _ first_narrow) (narrower _ second_narrow)

/-- A text is read up to fixed text that follows it. -/
theorem Tells.before (tells : Tells part fact first second) {front : String} {char : Char}
    (starts : front.toList.head? = some char) (apart : part char = false)
    (same : first.toList ++ (front.toList ++ rest) = second.toList ++ (front.toList ++ others)) :
    fact ∧ rest = others :=
  (tells (.literal starts apart) (.literal starts apart) same).imp_right List.append_cancel_left

/-- A text ends where fixed text follows that it cannot contain. -/
theorem Tells.ended (tells : Tells part fact first second) (front : String) {char : Char}
    (starts : front.toList.head? = some char) (apart : part char = false) :
    Tells (fun _ => false) fact (first ++ front) (second ++ front) := by
  intro rest others _ _ same
  rw [String.toList_append, String.toList_append, List.append_assoc, List.append_assoc] at same
  exact tells.before starts apart same

/-- A text is read up to one that cannot go on with it. -/
theorem Tells.append {more : Prop} {third fourth : String} (tells : Tells part fact first second)
    (next : Tells kind more third fourth) (breaks : ∀ rest, Breaks part (third.toList ++ rest))
    (also : ∀ rest, Breaks part (fourth.toList ++ rest)) :
    Tells kind (fact ∧ more) (first ++ third) (second ++ fourth) := by
  intro rest others rest_breaks others_breaks same
  rw [String.toList_append, String.toList_append, List.append_assoc, List.append_assoc] at same
  obtain ⟨held, later⟩ := tells (breaks rest) (also others) same
  exact (next rest_breaks others_breaks later).imp_left fun told => ⟨held, told⟩

/-- A text that ends by itself is read before any other. -/
theorem Tells.followed {more : Prop} {third fourth : String}
    (tells : Tells (fun _ => false) fact first second) (next : Tells kind more third fourth) :
    Tells kind (fact ∧ more) (first ++ third) (second ++ fourth) :=
  tells.append next (fun _ => .never _) fun _ => .never _

/-- Fixed text in front of a text does not matter. -/
theorem Tells.marked (tells : Tells part fact first second) (front : String) :
    Tells part fact (front ++ first) (front ++ second) := by
  intro rest others breaks also same
  rw [String.toList_append, String.toList_append, List.append_assoc, List.append_assoc] at same
  exact tells breaks also (List.append_cancel_left same)

theorem Begins.append (begins : Begins kind first) (more : String) :
    Begins kind (first ++ more) := by
  obtain ⟨start, tail, cons_eq, holds⟩ := begins
  exact ⟨start, tail ++ more.toList, by rw [String.toList_append, cons_eq, List.cons_append], holds⟩

theorem Begins.literal {front : String} {char : Char} (starts : front.toList.head? = some char)
    (holds : kind char = true) : Begins kind front := by
  obtain ⟨tail, cons_eq⟩ := List.head?_eq_some_iff.mp starts
  exact ⟨char, tail, cons_eq, holds⟩

theorem Begins.mono {wide : Char → Bool} (begins : Begins kind first)
    (wider : ∀ char, kind char = true → wide char = true) : Begins wide first := by
  obtain ⟨start, tail, cons_eq, holds⟩ := begins
  exact ⟨start, tail, cons_eq, wider start holds⟩

theorem Begins.breaks (begins : Begins kind first)
    (apart : ∀ char, kind char = true → part char = false) :
    Breaks part (first.toList ++ rest) := by
  obtain ⟨start, tail, cons_eq, holds⟩ := begins
  intro next head
  rw [cons_eq, List.cons_append, List.head?_cons] at head
  obtain rfl := Option.some.inj head
  exact apart start holds

/-- What does not go on with such a character does not start with the text. -/
theorem Begins.ne (begins : Begins kind first) (breaks : Breaks kind rest) :
    first.toList ++ others ≠ rest := by
  obtain ⟨start, tail, cons_eq, holds⟩ := begins
  rintro rfl
  have broken := breaks start (by rw [cons_eq]; rfl)
  rw [holds] at broken
  cases broken

theorem Begins.of_parts (parts : ∀ char ∈ first.toList, kind char = true)
    (nonempty : first.toList ≠ []) :
    Begins kind first := by
  obtain ⟨start, tail, cons_eq⟩ := List.exists_cons_of_ne_nil nonempty
  exact ⟨start, tail, cons_eq, parts start (by rw [cons_eq]; exact List.mem_cons_self)⟩

theorem takeWhile_of_breaks {characters : List Char}
    (parts : ∀ char ∈ characters, part char = true) (breaks : Breaks part rest) :
    (characters ++ rest).takeWhile part = characters := by
  rw [List.takeWhile_append_of_pos parts]
  cases rest with
  | nil => rw [List.takeWhile_nil, List.append_nil]
  | cons next rest =>
      rw [List.takeWhile_cons_of_neg (by rw [breaks next rfl]; decide), List.append_nil]

theorem Legible.of_injective
    (parts : ∀ item, valid item → ∀ char ∈ (text item).toList, part char = true)
    (injective : ∀ item other, valid item → valid other → text item = text other → item = other) :
    Legible valid part text := by
  intro item other item_valid other_valid rest others breaks also same
  have texts_eq : (text item).toList = (text other).toList := by
    rw [← takeWhile_of_breaks (parts item item_valid) breaks, same,
      takeWhile_of_breaks (parts other other_valid) also]
  rw [texts_eq] at same
  exact ⟨injective item other item_valid other_valid (String.toList_inj.mp texts_eq),
    List.append_cancel_left same⟩

/-! ### Numbers and names -/

theorem digits_natural (value : Nat) : ∀ char ∈ (toString value).toList, char.isDigit = true := by
  intro char member
  rw [Nat.toString_eq_repr, Nat.toList_repr] at member
  exact Nat.isDigit_of_mem_toDigits (by decide) (by decide) member

theorem begins_natural (value : Nat) : Begins Char.isDigit (toString value) :=
  .of_parts (digits_natural value) <| by
    rw [Nat.toString_eq_repr, Nat.toList_repr]
    exact Nat.toDigits_ne_nil

theorem legible_natural : Legible (fun _ => True) Char.isDigit (toString : Nat → String) :=
  .of_injective (fun value _ => digits_natural value)
    fun _ _ _ _ same => Nat.repr_inj.mp same

theorem begins_number {value : Float} (number : magnitude value ≠ .nan) :
    Begins isFigure (numberText value) :=
  .of_parts (numberText_figures number).1 (numberText_figures number).2

theorem legible_number : Legible (magnitude · ≠ .nan) isFigure numberText :=
  .of_injective (fun _ number => (numberText_figures number).1)
    fun _ _ number also same => (numberText_inj number also).mp same

/-- The name consists of characters of words. -/
def IsName (name : String) : Prop := ∀ char ∈ name.toList, isWordPart char = true

theorem legible_name : Legible IsName isWordPart fun name => name :=
  .of_injective (fun _ named => named) fun _ _ _ _ same => same

/-- Any text is legible up to a character that it does not contain. -/
theorem legible_until (stop : Char) :
    Legible (fun text : String => ∀ char ∈ text.toList, char ≠ stop) (· != stop) fun text => text :=
  .of_injective (fun _ apart char member => bne_iff_ne.mpr (apart char member))
    fun _ _ _ _ same => same

/-! ### Lists -/

/-- As many texts with commas between them tell what each of them tells. -/
theorem Tells.intercalate {items : List α} {fact : α → Prop} {left right : α → String}
    (each : ∀ item ∈ items, Tells part (fact item) (left item) (right item))
    (apart : part ',' = false) :
    Tells part (∀ item ∈ items, fact item) (", ".intercalate (items.map left))
      (", ".intercalate (items.map right)) := by
  induction items with
  | nil => exact fun _ _ _ _ same => ⟨List.forall_mem_nil _, same⟩
  | cons item items induction =>
      have tells := each item List.mem_cons_self
      have induction := induction fun other member => each other (List.mem_cons_of_mem _ member)
      cases items with
      | nil => exact tells.imp fun held => List.forall_mem_singleton.mpr held
      | cons next items =>
          intro rest others breaks also same
          simp only [List.map_cons, String.intercalate_cons_cons, String.toList_append,
            List.append_assoc] at same induction
          obtain ⟨held, same⟩ := tells.before rfl apart same
          obtain ⟨all, same⟩ := induction breaks also (by simpa using same)
          exact ⟨List.forall_mem_cons.mpr ⟨held, all⟩, same⟩

/-- A text before texts that start apart from its kind ends there. -/
theorem breaks_join {items : List α}
    (begins : ∀ item ∈ items, Begins (fun char => kind char && !part char) (text item))
    (wider : ∀ char, part char = true → kind char = true) (breaks : Breaks kind rest) :
    Breaks part ((String.join (items.map text)).toList ++ rest) := by
  cases items with
  | nil => exact breaks.mono wider
  | cons item items =>
      rw [List.map_cons, String.join_cons, String.toList_append, List.append_assoc]
      exact (begins item List.mem_cons_self).breaks fun char held => by
        simpa using (Bool.and_eq_true_iff.mp held).2

/-- Texts one after the other are legible if each shows where the one before it ends. -/
theorem Legible.join (legible : Legible valid part text)
    (begins : ∀ item, valid item → Begins (fun char => kind char && !part char) (text item))
    (wider : ∀ char, part char = true → kind char = true) :
    Legible (fun items : List α => ∀ item ∈ items, valid item) kind
      fun items : List α => String.join (items.map text) := by
  have starts {item : α} (item_valid : valid item) : Begins kind (text item) :=
    (begins item item_valid).mono fun char held => (Bool.and_eq_true_iff.mp held).1
  have follows {items : List α} (items_valid : ∀ item ∈ items, valid item) {rest : List Char}
      (breaks : Breaks kind rest) : Breaks part ((String.join (items.map text)).toList ++ rest) :=
    breaks_join (fun item member => begins item (items_valid item member)) wider breaks
  intro items
  induction items with
  | nil =>
      intro others _ others_valid rest tail breaks _ same
      cases others with
      | nil => exact ⟨rfl, same⟩
      | cons other others =>
          simp only [List.map_cons, String.join_cons, String.toList_append,
            List.append_assoc] at same
          exact absurd same.symm ((starts (others_valid other List.mem_cons_self)).ne breaks)
  | cons item items induction =>
      intro others items_valid others_valid rest tail breaks also same
      simp only [List.map_cons, String.join_cons, String.toList_append, List.append_assoc] at same
      rw [List.forall_mem_cons] at items_valid
      cases others with
      | nil => exact absurd same ((starts items_valid.1).ne also)
      | cons other others =>
          simp only [List.map_cons, String.join_cons, String.toList_append,
            List.append_assoc] at same
          rw [List.forall_mem_cons] at others_valid
          obtain ⟨rfl, remaining⟩ := legible items_valid.1 others_valid.1
            (follows items_valid.2 breaks) (follows others_valid.2 also) same
          obtain ⟨rfl, rest_eq⟩ := induction items_valid.2 others_valid.2 breaks also remaining
          exact ⟨rfl, rest_eq⟩

theorem intercalate_map_cons (separator : String) (item : α) (items : List α) :
    separator.intercalate ((item :: items).map text) =
      text item ++ String.join (items.map fun other => separator ++ text other) := by
  induction items generalizing item with
  | nil => simp
  | cons next items induction =>
      rw [List.map_cons, List.map_cons, String.intercalate_cons_cons, ← List.map_cons,
        induction next,
        List.map_cons, String.join_cons, String.append_assoc, String.append_assoc]

/-- Lists of any lengths are legible if a closing character follows. -/
theorem Legible.list {stop : Char} (legible : Legible valid part text)
    (begins : ∀ item, valid item → Begins (· != stop) (text item))
    (apart : part ',' = false) (stops : part stop = false) (closing : stop ≠ ',') :
    Legible (fun items : List α => ∀ item ∈ items, valid item) (· != stop)
      fun items : List α => ", ".intercalate (items.map text) := by
  have marked : Legible valid part fun item => ", " ++ text item := fun _ _ item_valid
      other_valid =>
    (legible item_valid other_valid).marked ", "
  have comma : (',' != stop && !part ',') = true := by simpa [apart] using closing.symm
  have marks (item : α) : Begins (fun char => char != stop && !part char) (", " ++ text item) :=
    (Begins.literal rfl comma).append _
  have follows (items : List α) {rest : List Char} (breaks : Breaks (· != stop) rest) :
      Breaks part ((String.join (items.map fun item => ", " ++ text item)).toList ++ rest) :=
    breaks_join (fun item _ => marks item) (bne_of_part stops) breaks
  intro items others items_valid others_valid rest tail breaks also same
  cases items with
  | nil =>
      cases others with
      | nil => exact ⟨rfl, same⟩
      | cons other others =>
          rw [List.forall_mem_cons] at others_valid
          simp only [intercalate_map_cons, String.toList_append, List.append_assoc] at same
          exact absurd same.symm ((begins other others_valid.1).ne breaks)
  | cons item items =>
      rw [List.forall_mem_cons] at items_valid
      simp only [intercalate_map_cons, String.toList_append, List.append_assoc] at same
      cases others with
      | nil => exact absurd same ((begins item items_valid.1).ne also)
      | cons other others =>
          rw [List.forall_mem_cons] at others_valid
          simp only [intercalate_map_cons, String.toList_append, List.append_assoc] at same
          obtain ⟨rfl, remaining⟩ := legible items_valid.1 others_valid.1 (follows items breaks)
            (follows others also) same
          obtain ⟨rfl, rest_eq⟩ :=
            marked.join (fun item _ => marks item) (bne_of_part stops) items_valid.2 others_valid.2
              breaks also remaining
          exact ⟨rfl, rest_eq⟩

/-! ### Shapes and types -/

theorem legible_dimensions :
    Legible (fun _ => True) Char.isDigit fun dimensions : List Nat =>
      String.join (dimensions.map fun dimension => s!"{dimension}x") := by
  have ended : Legible (fun _ => True) (fun _ => false) fun dimension : Nat => s!"{dimension}x" :=
    fun first second _ _ => (legible_natural trivial trivial).ended "x" rfl rfl
  have begins (dimension : Nat) : Begins (fun char => char.isDigit && !false) s!"{dimension}x" :=
    ((begins_natural dimension).append "x").mono fun _ digit => by rw [digit]; rfl
  exact (ended.join (fun dimension _ => begins dimension) fun _ never => by cases never).restrict
    fun _ _ _ _ => trivial

private theorem intercalate_dimensions (dimension : Nat) (dimensions : List Nat) :
    "x".intercalate ((dimension :: dimensions).map toString) ++ "x" =
      String.join ((dimension :: dimensions).map fun dimension => s!"{dimension}x") := by
  induction dimensions generalizing dimension with
  | nil => simp [String.join, toString]
  | cons next dimensions induction =>
      rw [List.map_cons, List.map_cons, String.intercalate_cons_cons, ← List.map_cons,
        String.append_assoc, induction next]
      exact (String.join_cons).symm

theorem TensorType.text_ranked (shape : Shape) :
    (TensorType.ranked shape).text = "tensor<" ++
      (String.join (shape.dimensions.map fun dimension => s!"{dimension}x") ++ "f64>") := by
  obtain ⟨dimensions⟩ := shape
  cases dimensions with
  | nil => rfl
  | cons dimension dimensions =>
      rw [← intercalate_dimensions]
      have mark : "xf64>" = "x" ++ "f64>" := rfl
      rw [TensorType.text, mark]
      · simp only [String.append_assoc]
      · simp

private theorem begins_dimensions (dimensions : List Nat) :
    Begins (· != '*')
      (String.join (dimensions.map fun dimension => s!"{dimension}x") ++ "f64>") := by
  cases dimensions with
  | nil => exact .literal rfl rfl
  | cons dimension dimensions =>
      rw [List.map_cons, String.join_cons]
      exact ((((begins_natural dimension).append "x").append _).append _).mono (bne_of_part rfl)

theorem begins_type (type : TensorType) : Begins (· == 't') type.text := by
  cases type with
  | unranked => exact .literal rfl rfl
  | ranked shape =>
      rw [TensorType.text_ranked]
      exact (Begins.literal rfl rfl).append _

/-- Types are legible, whatever follows. -/
theorem legible_type : Legible (fun _ => True) (fun _ => false) TensorType.text := by
  have no_star (shape : Shape) (rest others : List Char) :
      (TensorType.ranked shape).text.toList ++ rest ≠
        TensorType.unranked.text.toList ++ others := by
    intro same
    have star : TensorType.unranked.text = "tensor<" ++ "*xf64>" := rfl
    have begins := begins_dimensions shape.dimensions
    rw [TensorType.text_ranked, star] at same
    generalize String.join _ ++ "f64>" = dimensions at same begins
    simp only [String.toList_append, List.append_assoc] at same
    exact begins.ne (.literal rfl rfl) (List.append_cancel_left same)
  intro first second _ _ rest others _ _ same
  cases first with
  | unranked =>
      cases second with
      | unranked => exact ⟨rfl, List.append_cancel_left same⟩
      | ranked shape => exact absurd same.symm (no_star shape others rest)
  | ranked shape =>
      cases second with
      | unranked => exact absurd same (no_star shape rest others)
      | ranked other =>
          simp only [TensorType.text_ranked, String.toList_append, List.append_assoc] at same
          obtain ⟨dimensions_eq, rest_eq⟩ :=
            (legible_dimensions trivial trivial).before rfl rfl (List.append_cancel_left same)
          exact ⟨congrArg (TensorType.ranked ⟨·⟩) dimensions_eq, rest_eq⟩

/-! ### Tensors -/

private theorem tells_nestedText {dimensions : List Nat} {left right : List Nat → Float}
    (numbers : ∀ indices, Shape.Within dimensions indices → magnitude (left indices) ≠ .nan)
    (also : ∀ indices, Shape.Within dimensions indices → magnitude (right indices) ≠ .nan) :
    Tells isFigure (∀ indices, Shape.Within dimensions indices → left indices = right indices)
      (nestedText ", " dimensions left) (nestedText ", " dimensions right) := by
  induction dimensions generalizing left right with
  | nil =>
      refine (legible_number (numbers [] trivial) (also [] trivial)).imp
        fun held indices within => ?_
      cases indices with
      | nil => exact held
      | cons index indices => cases within
  | cons outer inner induction =>
      have each : ∀ index ∈ List.range outer, Tells isFigure
          (∀ indices, Shape.Within inner indices →
            left (index :: indices) = right (index :: indices))
          (nestedText ", " inner fun indices => left (index :: indices))
          (nestedText ", " inner fun indices => right (index :: indices)) := fun index inside =>
        induction
          (fun indices within => numbers (index :: indices) ⟨List.mem_range.mp inside, within⟩)
          fun indices within => also (index :: indices) ⟨List.mem_range.mp inside, within⟩
      rw [nestedText, nestedText]
      refine (((Tells.intercalate each rfl).marked "[").ended "]" rfl rfl).anywhere.imp
        fun held indices within => ?_
      cases indices with
      | nil => cases within
      | cons index indices => exact held index (List.mem_range.mpr within.1) indices within.2

/-- Two tensors without NaN of one shape can be told from their texts. -/
theorem TensorLiteral.tells {left right : TensorLiteral} {first second : String}
    (shapes : left.shape = right.shape) (numbers : ∀ value ∈ left.values, magnitude value ≠ .nan)
    (also : ∀ value ∈ right.values, magnitude value ≠ .nan) (first_eq : left.text? = some first)
    (second_eq : right.text? = some second) : Tells isFigure (left = right) first second := by
  obtain ⟨⟨shape, values, filled⟩, bounded⟩ := left
  obtain ⟨⟨_, others, others_filled⟩, others_bounded⟩ := right
  obtain rfl : shape = _ := shapes
  rw [text?, nestedText?_of_filled _ filled, Option.some_inj] at first_eq
  rw [text?, nestedText?_of_filled _ others_filled, Option.some_inj] at second_eq
  subst first_eq second_eq
  refine (tells_nestedText ?_ ?_).imp fun held => ?_
  · exact fun indices within => numbers _ (getD_rowMajor_mem filled within)
  · exact fun indices within => also _ (getD_rowMajor_mem others_filled within)
  · have values_eq : values = others := by
      rw [← map_rowMajor_indexTuples filled, ← map_rowMajor_indexTuples others_filled]
      exact List.map_congr_left fun indices listed => held indices (Shape.mem_indexTuples.mp listed)
    subst values_eq
    rfl

end TensorLang
