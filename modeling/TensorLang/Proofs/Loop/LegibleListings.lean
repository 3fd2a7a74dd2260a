import TensorLang.Loop.Listing
import TensorLang.Proofs.Legible

/-!
# Listings of loop functions tell the functions

A plain listing is read from its start.  Each instruction is determined by its line, a step that is
left out is one, and a block ends where a closing brace stands one level further out.
-/

namespace TensorLang

namespace Loop

/-! ### Lines without colours -/

/-- The end of the first line of a loop, from its step on. -/
def loopEnd (step : Nat) : String := stepText .plain step ++ " " ++ braceOpen

namespace Instruction

/-- The operands of an instruction. -/
def operands : Instruction → List Operand
  | .store value _ _ => [value]
  | .arithmetic _ _ left right => [left, right]
  | _ => []

/-- The instructions that a loop repeats. -/
def body? : Instruction → Option (List Instruction)
  | .loop _ _ _ _ body => some body
  | _ => none

/-- The line of an instruction, or the first one of a loop, when buffers have these shapes. -/
def head (shapes : BufferId → Shape) : Instruction → String
  | .alloc buffer =>
      assignText .plain (bufferText .plain buffer)
        (wordText .plain "alloc" ++ " " ++ ":" ++ " " ++ bufferTypeText (shapes buffer))
  | .dealloc buffer => wordText .plain "dealloc" ++ " " ++ bufferText .plain buffer
  | .load destination buffer indices =>
      assignText .plain (registerText .plain destination)
        (wordText .plain "load" ++ " " ++ elementText .plain buffer indices)
  | .store value buffer indices =>
      wordText .plain "store" ++ " " ++ value.text .plain ++ ", " ++
        elementText .plain buffer indices
  | .arithmetic operator destination left right =>
      assignText .plain (registerText .plain destination)
        (wordText .plain operator.name ++ " " ++ left.text .plain ++ ", " ++ right.text .plain)
  | .loop counter lower upper step _ =>
      "for" ++ " " ++ loopVariableText .plain counter ++ " = " ++ numeralText .plain lower ++ " " ++
        "to" ++ " " ++ numeralText .plain upper ++ loopEnd step
  | .copy source destination =>
      wordText .plain "copy" ++ " " ++ bufferText .plain source ++ ", " ++
        bufferText .plain destination
  | .print buffer => wordText .plain "print" ++ " " ++ bufferText .plain buffer
  | .leave => wordText .plain "return"

end Instruction

mutual

/-- The instruction and all instructions in its body. -/
def Instruction.parts : Instruction → List Instruction
  | .loop counter lower upper step body => .loop counter lower upper step body :: blockParts body
  | instruction => [instruction]

/-- The instructions of a block and all instructions in their bodies. -/
def blockParts : List Instruction → List Instruction
  | [] => []
  | instruction :: rest => instruction.parts ++ blockParts rest

end

mutual

/-- The lines of an instruction when buffers have these shapes. -/
def Instruction.plainLines (shapes : BufferId → Shape) (depth : Nat) : Instruction → String
  | .loop counter lower upper step body =>
      indentation depth ++ Instruction.head shapes (.loop counter lower upper step body) ++ "\n" ++
        blockPlainLines shapes (depth + 1) body ++ indentation depth ++ braceClose ++ "\n"
  | instruction => indentation depth ++ instruction.head shapes ++ "\n"

/-- The lines of a block when buffers have these shapes. -/
def blockPlainLines (shapes : BufferId → Shape) (depth : Nat) : List Instruction → String
  | [] => ""
  | instruction :: rest =>
      instruction.plainLines shapes depth ++ blockPlainLines shapes depth rest

end

/-- The lines of the body of a loop and its closing brace. -/
def Instruction.bodyLines (shapes : BufferId → Shape) (depth : Nat) (instruction : Instruction) :
    String :=
  match instruction.body? with
  | some body =>
      blockPlainLines shapes (depth + 1) body ++ indentation depth ++ braceClose ++ "\n"
  | none => ""

theorem Instruction.plainLines_eq (shapes : BufferId → Shape) (depth : Nat)
    (instruction : Instruction) :
    instruction.plainLines shapes depth = indentation depth ++ instruction.head shapes ++ "\n" ++
      instruction.bodyLines shapes depth := by
  cases instruction <;> simp [Instruction.plainLines, bodyLines, body?, String.append_assoc]

namespace Function

variable {function : Function}

/-- The shape of a buffer, where there is one. -/
def shape? (function : Function) (buffer : BufferId) : Option Shape :=
  (function.buffers.get? buffer).map Buffer.shape

/-- The shape of a buffer that is known. -/
def shapeOf (function : Function) (buffer : BufferId) : Shape :=
  (function.shape? buffer).getD .scalar

mutual

private theorem instructionLines_plain (depth : Nat) (instruction : Instruction)
    (known : ∀ buffer, .alloc buffer ∈ instruction.parts → (function.shape? buffer).isSome) :
    function.instructionLines .plain depth instruction =
      .ok (instruction.plainLines function.shapeOf depth) := by
  cases instruction with
  | alloc buffer =>
      have found := known buffer (by simp [Instruction.parts])
      rw [shape?, Option.isSome_map, Option.isSome_iff_exists] at found
      obtain ⟨found, found_eq⟩ := found
      have shape_eq :
          function.shapeOf buffer = found.shape := by rw [shapeOf, shape?, found_eq]; rfl
      simp only [instructionLines, found_eq, Instruction.plainLines, Instruction.head, shape_eq,
        Outcome.promised, Ink.paint_plain]
      rfl
  | loop counter lower upper step body =>
      have lines_eq := blockLines_plain (depth + 1) body fun buffer member =>
        known buffer (by rw [Instruction.parts]; exact List.mem_cons_of_mem _ member)
      simp only [instructionLines, lines_eq, Instruction.plainLines, Instruction.head, loopEnd,
        Ink.paint_plain, String.append_assoc]
      rfl
  | _ =>
      simp only [instructionLines, Instruction.plainLines, Instruction.head, String.append_assoc]
      rfl

theorem blockLines_plain (depth : Nat) (block : List Instruction)
    (known : ∀ buffer, .alloc buffer ∈ blockParts block → (function.shape? buffer).isSome) :
    function.blockLines .plain depth block =
      .ok (blockPlainLines function.shapeOf depth block) := by
  cases block with
  | nil => rw [blockLines, blockPlainLines]
  | cons instruction rest =>
      have first := instructionLines_plain depth instruction fun buffer member =>
        known buffer (by rw [blockParts]; exact List.mem_append_left _ member)
      have others := blockLines_plain depth rest fun buffer member =>
        known buffer (by rw [blockParts]; exact List.mem_append_right _ member)
      rw [blockLines, first, others, blockPlainLines]
      rfl

end

end Function

/-! ### Words of a line -/

theorem legible_handle {entity : Entity} (front : String) :
    Legible (fun _ => True) Char.isDigit fun id : Handle entity => front ++ toString id.index :=
  fun _ _ _ _ => ((legible_natural trivial trivial).marked front).imp (congrArg Handle.mk)

theorem legible_buffer : Legible (fun _ => True) Char.isDigit (bufferText .plain) :=
  legible_handle "%buf"

theorem legible_register : Legible (fun _ => True) Char.isDigit (registerText .plain) :=
  legible_handle "%r"

theorem legible_loopVariable : Legible (fun _ => True) Char.isDigit (loopVariableText .plain) :=
  legible_handle "%i"

@[simp]
theorem bufferText_plain (buffer : BufferId) :
    bufferText .plain buffer = "%buf" ++ toString buffer.index := rfl

@[simp]
theorem registerText_plain (register : RegisterId) :
    registerText .plain register = "%r" ++ toString register.index := rfl

private theorem legible_index : Legible (fun _ => True) Char.isDigit (Index.text .plain) := by
  have apart (value : Nat) (id : LoopVariableId) (rest others : List Char) :
      (Index.text .plain (.constant value)).toList ++ rest ≠
        (Index.text .plain (.loopVariable id)).toList ++ others := by
    rw [Index.text, Index.text, loopVariableText, Ink.paint_plain, String.toList_append,
      List.append_assoc]
    exact (begins_natural value).ne (.literal rfl rfl)
  intro first second _ _ rest others breaks also same
  cases first with
  | constant value =>
      cases second with
      | constant other =>
          exact (legible_natural trivial trivial breaks also same).imp_left (congrArg _)
      | loopVariable id => exact absurd same (apart value id rest others)
  | loopVariable id =>
      cases second with
      | constant other => exact absurd same.symm (apart other id others rest)
      | loopVariable other =>
          exact (legible_loopVariable trivial trivial breaks also same).imp_left (congrArg _)

/-- The operand is no NaN. -/
def Operand.IsNumber (operand : Operand) : Prop :=
  ∀ value, operand = .immediate value → magnitude value ≠ .nan

theorem legible_operand : Legible Operand.IsNumber isFigure (Operand.text .plain) := by
  have apart {value : Float} (number : magnitude value ≠ .nan) (id : RegisterId)
      (rest others : List Char) :
      (Operand.text .plain (.immediate value)).toList ++ rest ≠
        (Operand.text .plain (.register id)).toList ++ others := by
    rw [Operand.text, Operand.text, registerText, Ink.paint_plain, Ink.paint_plain,
      String.toList_append, List.append_assoc]
    exact (begins_number number).ne (.literal rfl rfl)
  have digits (char : Char) (digit : char.isDigit = true) : isFigure char = true := by
    rw [isFigure, digit, Bool.true_or]
  intro first second first_number second_number rest others breaks also same
  cases first with
  | immediate value =>
      cases second with
      | immediate other =>
          exact (legible_number (first_number value rfl) (second_number other rfl) breaks also
            same).imp_left (congrArg _)
      | register id => exact absurd same (apart (first_number value rfl) id rest others)
  | register id =>
      cases second with
      | immediate other => exact absurd same.symm (apart (second_number other rfl) id others rest)
      | register other =>
          exact ((legible_register trivial trivial).mono digits breaks also same).imp_left
            (congrArg _)

private theorem legible_indices :
    Legible (fun _ => True) (· != ']') fun indices : List Index =>
      ", ".intercalate (indices.map (Index.text .plain)) := by
  have begins (index : Index) : Begins (· != ']') (index.text .plain) := by
    cases index with
    | constant value => exact (begins_natural value).mono (bne_of_part rfl)
    | loopVariable id => exact Begins.append (.literal rfl rfl) _
  exact (legible_index.list (fun index _ => begins index) rfl rfl (by decide)).restrict
    fun _ _ _ _ => trivial

theorem tells_element {buffer other : BufferId} {indices places : List Index} :
    Tells (fun _ => false) (buffer = other ∧ indices = places) (elementText .plain buffer indices)
      (elementText .plain other places) :=
  (((legible_buffer trivial trivial).ended "[" rfl rfl).followed
    (legible_indices trivial trivial)).ended "]" rfl rfl

private theorem legible_bufferType : Legible (fun _ => True) (fun _ => false) bufferTypeText := by
  rintro ⟨dimensions⟩ ⟨others⟩ - -
  have told : Tells Char.isDigit (dimensions = others) _ _ := legible_dimensions trivial trivial
  exact ((told.marked "memref<").ended "f64>" rfl rfl).imp (congrArg Shape.mk)

theorem breaks_loopEnd (step : Nat) {rest : List Char} :
    Breaks Char.isDigit ((loopEnd step).toList ++ rest) := by
  rw [loopEnd, stepText]
  split <;> simp [Breaks]

theorem legible_loopEnd : Legible (fun _ => True) (fun _ => false) loopEnd := by
  intro first second _ _ rest others _ _ same
  by_cases first_one : first = 1
  · by_cases second_one : second = 1
    · subst first_one second_one
      exact ⟨rfl, List.append_cancel_left same⟩
    · simp [loopEnd, stepText, first_one, second_one, braceOpen] at same
  · by_cases second_one : second = 1
    · simp [loopEnd, stepText, first_one, second_one, braceOpen] at same
    · simp only [loopEnd, stepText, first_one, second_one, if_false, Ink.paint_plain, numeralText,
        String.toList_append, List.append_assoc, List.append_cancel_left_eq] at same
      obtain ⟨rfl, rest_eq⟩ := (legible_natural trivial trivial).before rfl rfl same
      exact ⟨rfl, List.append_cancel_left rest_eq⟩

private theorem legible_operator : Legible (fun _ => True) (fun _ => false) Arithmetic.name := by
  intro first second _ _ rest others _ _ same
  cases first <;> cases second <;> simp [Arithmetic.name] at same
  all_goals exact ⟨rfl, same⟩

/-! ### Lines and blocks -/

namespace Instruction

variable {shapes others : BufferId → Shape} {first second : Instruction}

/-- Two instructions are the same up to their bodies, and so is the shape of a buffer that they
allocate. -/
inductive SameHead (shapes others : BufferId → Shape) : Instruction → Instruction → Prop where
  /-- The bodies of loops may differ. -/
  | loop (counter : LoopVariableId) (lower upper step : Nat) (body code : List Instruction) :
      SameHead shapes others (.loop counter lower upper step body)
        (.loop counter lower upper step code)
  /-- Other instructions have no bodies. -/
  | flat {instruction : Instruction} (flat : instruction.body? = none)
      (allocated : ∀ buffer, instruction = .alloc buffer → shapes buffer = others buffer) :
      SameHead shapes others instruction instruction

theorem parts_of_body? {instruction : Instruction} (flat : instruction.body? = none) :
    instruction.parts = [instruction] := by
  cases instruction <;> first | rfl | cases flat

/-- The first two characters of the line of an instruction. -/
def mark : Instruction → List Char
  | .alloc _ => ['%', 'b']
  | .dealloc _ => ['d', 'e']
  | .load _ _ _ => ['%', 'r']
  | .store _ _ _ => ['s', 't']
  | .arithmetic _ _ _ _ => ['%', 'r']
  | .loop _ _ _ _ _ => ['f', 'o']
  | .copy _ _ => ['c', 'o']
  | .print _ => ['p', 'r']
  | .leave => ['r', 'e']

theorem take_head (shapes : BufferId → Shape) (instruction : Instruction) (rest : List Char) :
    ((instruction.head shapes).toList ++ rest).take 2 = instruction.mark := by
  cases instruction <;>
    simp [head, mark, assignText, wordText, bufferText_plain, registerText_plain]

/-- Names and values of assignments are read one after the other. -/
theorem tells_assign {part kind : Char → Bool} {fact more : Prop}
    {name other value content : String}
    (named : Tells part fact name other) (apart : part ' ' = false)
    (valued : Tells kind more value content) :
    Tells kind (fact ∧ more) (assignText .plain name value) (assignText .plain other content) :=
  (((named.ended " " rfl apart).ended "=" rfl rfl).ended " " rfl rfl).followed valued

private theorem tells_alloc {buffer other : BufferId} :
    Tells (fun _ => false) (buffer = other ∧ shapes buffer = others other)
      ((alloc buffer).head shapes) ((alloc other).head others) :=
  tells_assign (legible_buffer trivial trivial) rfl
    ((legible_bufferType trivial trivial).marked "alloc : ")

theorem tells_load {destination target : RegisterId} {buffer other : BufferId}
    {indices places : List Index} :
    Tells (fun _ => false) (destination = target ∧ buffer = other ∧ indices = places)
      ((load destination buffer indices).head shapes) ((load target other places).head others) :=
  tells_assign (legible_register trivial trivial) rfl (tells_element.marked "load ")

theorem tells_store {value content : Operand} {buffer other : BufferId}
    {indices places : List Index} (number : value.IsNumber) (also : content.IsNumber) :
    Tells (fun _ => false) (value = content ∧ buffer = other ∧ indices = places)
      ((store value buffer indices).head shapes) ((store content other places).head others) :=
  (((legible_operand number also).marked "store ").ended ", " rfl rfl).followed tells_element

theorem tells_arithmetic {operator other : Arithmetic} {destination target : RegisterId}
    {left right input operand : Operand} (left_number : left.IsNumber)
    (right_number : right.IsNumber) (input_number : input.IsNumber)
    (operand_number : operand.IsNumber) :
    Tells isFigure (destination = target ∧ (operator = other ∧ left = input) ∧ right = operand)
      ((arithmetic operator destination left right).head shapes)
      ((arithmetic other target input operand).head others) := by
  have named : Tells (fun _ => false) (operator = other) _ _ :=
    (legible_operator trivial trivial).ended " " rfl rfl
  have started := (named.followed (legible_operand left_number input_number)).ended ", " rfl rfl
  exact tells_assign (legible_register trivial trivial) rfl
    (started.followed (legible_operand right_number operand_number))

theorem tells_loop {counter other : LoopVariableId} {lower upper step start stop stride : Nat}
    {body code : List Instruction} :
    Tells (fun _ => false) (((counter = other ∧ lower = start) ∧ upper = stop) ∧ step = stride)
      ((loop counter lower upper step body).head shapes)
      ((loop other start stop stride code).head others) := by
  have counters : Tells Char.isDigit (counter = other) _ _ :=
    (legible_loopVariable trivial trivial).marked "for "
  have numerals (first second : Nat) : Tells Char.isDigit (first = second)
      (numeralText .plain first) (numeralText .plain second) := legible_natural trivial trivial
  have lowers := ((counters.ended " = " rfl rfl).followed (numerals lower start)).ended " " rfl rfl
  have uppers := ((lowers.ended "to" rfl rfl).ended " " rfl rfl).followed (numerals upper stop)
  exact uppers.append (legible_loopEnd trivial trivial) (fun _ => breaks_loopEnd step)
    fun _ => breaks_loopEnd stride

private theorem tells_copy {source origin destination target : BufferId} :
    Tells Char.isDigit (source = origin ∧ destination = target)
      ((copy source destination).head shapes) ((copy origin target).head others) :=
  (((legible_buffer trivial trivial).marked "copy ").ended ", " rfl rfl).followed
    (legible_buffer trivial trivial)

/-- What a load and what an arithmetic instruction gives to a register starts differently. -/
theorem load_ne_arithmetic {destination target : RegisterId} {buffer : BufferId}
    {indices : List Index} {operator : Arithmetic} {left right : Operand} {rest tail : List Char} :
    ((load destination buffer indices).head shapes).toList ++ rest ≠
      ((arithmetic operator target left right).head others).toList ++ tail := by
  intro same
  simp only [head, assignText, wordText, Ink.paint_plain, String.toList_append,
    List.append_assoc] at same
  have values := ((legible_register trivial trivial).before rfl rfl same).2
  cases operator <;> simp [Arithmetic.name] at values

theorem tells_head (numbers : ∀ operand ∈ first.operands, operand.IsNumber)
    (also : ∀ operand ∈ second.operands, operand.IsNumber) :
    Tells (· != '\n') (SameHead shapes others first second) (first.head shapes)
      (second.head others) := by
  intro rest tail breaks ends same
  have marks : first.mark = second.mark := by
    rw [← take_head shapes first rest, same, take_head]
  cases first with
  | alloc buffer =>
      cases second with
      | alloc other =>
          refine tells_alloc.anywhere.imp ?_ breaks ends same
          rintro ⟨rfl, shape_eq⟩
          exact .flat rfl fun _ allocates => by cases allocates; exact shape_eq
      | _ => cases marks
  | dealloc buffer =>
      cases second with
      | dealloc other =>
          have told : Tells Char.isDigit (buffer = other) _ _ :=
            (legible_buffer trivial trivial).marked "dealloc "
          refine (told.until rfl).imp ?_ breaks ends same
          rintro rfl
          exact .flat rfl nofun
      | _ => cases marks
  | load destination buffer indices =>
      cases second with
      | load target other places =>
          refine tells_load.anywhere.imp ?_ breaks ends same
          rintro ⟨rfl, rfl, rfl⟩
          exact .flat rfl nofun
      | arithmetic operator target left right => exact absurd same load_ne_arithmetic
      | _ => cases marks
  | store value buffer indices =>
      cases second with
      | store content other places =>
          refine (tells_store (numbers value (by simp [operands]))
            (also content (by simp [operands]))).anywhere.imp ?_ breaks ends same
          rintro ⟨rfl, rfl, rfl⟩
          exact .flat rfl nofun
      | _ => cases marks
  | arithmetic operator destination left right =>
      cases second with
      | arithmetic other target input operand =>
          refine ((tells_arithmetic (numbers left (by simp [operands]))
            (numbers right (by simp [operands])) (also input (by simp [operands]))
            (also operand (by simp [operands]))).until rfl).imp ?_ breaks ends same
          rintro ⟨rfl, ⟨rfl, rfl⟩, rfl⟩
          exact .flat rfl nofun
      | load target buffer indices => exact absurd same.symm load_ne_arithmetic
      | _ => cases marks
  | loop counter lower upper step body =>
      cases second with
      | loop other start stop stride code =>
          refine tells_loop.anywhere.imp ?_ breaks ends same
          rintro ⟨⟨⟨rfl, rfl⟩, rfl⟩, rfl⟩
          exact .loop _ _ _ _ _ _
      | _ => cases marks
  | copy source destination =>
      cases second with
      | copy origin target =>
          refine (tells_copy.until rfl).imp ?_ breaks ends same
          rintro ⟨rfl, rfl⟩
          exact .flat rfl nofun
      | _ => cases marks
  | print buffer =>
      cases second with
      | print other =>
          have told : Tells Char.isDigit (buffer = other) _ _ :=
            (legible_buffer trivial trivial).marked "print "
          refine (told.until rfl).imp ?_ breaks ends same
          rintro rfl
          exact .flat rfl nofun
      | _ => cases marks
  | leave =>
      cases second with
      | leave => exact ⟨.flat rfl nofun, List.append_cancel_left same⟩
      | _ => cases marks

end Instruction

/-- A closing brace that stands one level further out than a block. -/
def Closes (depth : Nat) (rest : List Char) : Prop :=
  ∃ others, rest = (indentation depth).toList ++ '\x7d' :: others

theorem Closes.brace (depth : Nat) (others : List Char) :
    Closes depth ((indentation depth).toList ++ (braceClose.toList ++ others)) := ⟨others, rfl⟩

theorem Closes.not_line {depth : Nat} {rest others : List Char} (closes : Closes depth rest) :
    rest ≠ (indentation (depth + 1)).toList ++ others := by
  obtain ⟨after, rfl⟩ := closes
  intro same
  have deeper : (indentation (depth + 1)).toList = (indentation depth).toList ++ [' ', ' '] := by
    rw [indentation, indentation, String.toList_ofList, String.toList_ofList, Nat.mul_add,
      List.replicate_add]
    rfl
  rw [deeper, List.append_assoc, List.append_cancel_left_eq] at same
  cases same

theorem Instruction.mem_parts (instruction : Instruction) : instruction ∈ instruction.parts := by
  cases instruction <;> simp [parts]

/-- Two blocks are the same, and so are the shapes of all buffers that they allocate. -/
structure SameBlock (shapes others : BufferId → Shape) (first second : List Instruction) :
    Prop where
  blocks : first = second
  allocated : ∀ buffer, .alloc buffer ∈ blockParts first → shapes buffer = others buffer

section Blocks

variable {shapes others : BufferId → Shape} {depth : Nat}

/-- The first line of an instruction ends before the lines of its body. -/
theorem Instruction.sameHead {first second : Instruction} {rest tail : List Char}
    (numbers : ∀ operand ∈ first.operands, operand.IsNumber)
    (also : ∀ operand ∈ second.operands, operand.IsNumber)
    (same : (first.plainLines shapes depth).toList ++ rest =
      (second.plainLines others depth).toList ++ tail) :
    SameHead shapes others first second ∧
      (first.bodyLines shapes depth).toList ++ rest =
        (second.bodyLines others depth).toList ++ tail := by
  simp only [plainLines_eq, String.toList_append, List.append_assoc,
    List.append_cancel_left_eq] at same
  exact (tells_head numbers also).before rfl rfl same

mutual

private theorem Instruction.tells_lines (depth : Nat) (first second : Instruction)
    {rest tail : List Char}
    (numbers : ∀ part ∈ first.parts, ∀ operand ∈ part.operands, operand.IsNumber)
    (also : ∀ part ∈ second.parts, ∀ operand ∈ part.operands, operand.IsNumber)
    (same : (first.plainLines shapes depth).toList ++ rest =
      (second.plainLines others depth).toList ++ tail) :
    (first = second ∧ ∀ buffer, .alloc buffer ∈ first.parts → shapes buffer = others buffer) ∧
      rest = tail := by
  obtain ⟨sameHead, remaining⟩ :=
    Instruction.sameHead (numbers first first.mem_parts) (also second second.mem_parts) same
  cases sameHead with
  | loop counter lower upper step body code =>
      simp only [Instruction.parts, List.mem_cons, forall_eq_or_imp] at numbers also
      simp only [Instruction.bodyLines, Instruction.body?, String.toList_append,
        List.append_assoc] at remaining
      obtain ⟨sameBlock, closings⟩ :=
        tells_block depth body code numbers.2 also.2 (.brace depth _) (.brace depth _) remaining
      obtain ⟨rfl, allocated⟩ := sameBlock
      simp only [List.append_cancel_left_eq] at closings
      refine ⟨⟨rfl, fun buffer member => ?_⟩, closings⟩
      rw [Instruction.parts, List.mem_cons] at member
      exact allocated buffer (member.resolve_left nofun)
  | flat flat allocated =>
      simp only [Instruction.bodyLines, flat] at remaining
      refine ⟨⟨rfl, fun buffer member => ?_⟩, remaining⟩
      rw [Instruction.parts_of_body? flat, List.mem_singleton] at member
      exact allocated buffer member.symm

/-- A block is known from its lines and the place where it is closed. -/
theorem tells_block (depth : Nat) (first second : List Instruction) {rest tail : List Char}
    (numbers : ∀ part ∈ blockParts first, ∀ operand ∈ part.operands, operand.IsNumber)
    (also : ∀ part ∈ blockParts second, ∀ operand ∈ part.operands, operand.IsNumber)
    (closes : Closes depth rest) (ends : Closes depth tail)
    (same : (blockPlainLines shapes (depth + 1) first).toList ++ rest =
      (blockPlainLines others (depth + 1) second).toList ++ tail) :
    SameBlock shapes others first second ∧ rest = tail := by
  cases first with
  | nil =>
      cases second with
      | nil => exact ⟨⟨rfl, by simp [blockParts]⟩, same⟩
      | cons other second =>
          simp only [blockPlainLines, Instruction.plainLines_eq, String.toList_append,
            List.append_assoc] at same
          exact absurd same closes.not_line
  | cons instruction first =>
      cases second with
      | nil =>
          simp only [blockPlainLines, Instruction.plainLines_eq, String.toList_append,
            List.append_assoc] at same
          exact absurd same.symm ends.not_line
      | cons other second =>
          simp only [blockParts, List.forall_mem_append] at numbers also
          simp only [blockPlainLines, String.toList_append, List.append_assoc] at same
          obtain ⟨⟨rfl, allocated⟩, remaining⟩ :=
            Instruction.tells_lines (depth + 1) instruction other numbers.1 also.1 same
          obtain ⟨⟨rfl, others_allocated⟩, rest_eq⟩ :=
            tells_block depth first second numbers.2 also.2 closes ends remaining
          refine ⟨⟨rfl, ?_⟩, rest_eq⟩
          intro buffer member
          rw [blockParts, List.mem_append] at member
          exact member.elim (allocated buffer) (others_allocated buffer)

end

end Blocks

/-! ### Whole functions -/

namespace Function

variable {function : Function}

/-- What a function needs for its listing to tell it: its name is a word, its fixed numbers are
numbers, and the buffers that it allocates are known. -/
structure Writable (function : Function) : Prop where
  named : IsName function.name
  numbers : ∀ part ∈ blockParts function.body, ∀ operand ∈ part.operands, operand.IsNumber
  known : ∀ buffer, .alloc buffer ∈ blockParts function.body → (function.shape? buffer).isSome

theorem shape?_eq_some {buffer : BufferId} (known : (function.shape? buffer).isSome) :
    function.shape? buffer = some (function.shapeOf buffer) := by
  obtain ⟨shape, shape_eq⟩ := Option.isSome_iff_exists.mp known
  rw [shapeOf, shape_eq]
  rfl

/-- The plain listing of a function whose buffers are known. -/
theorem listing_plain
    (known : ∀ buffer, .alloc buffer ∈ blockParts function.body → (function.shape? buffer).isSome) :
    function.listing .plain =
      .ok ("func" ++ " " ++ ("@" ++ function.name) ++ ("() " ++ braceOpen) ++ "\n" ++
        blockPlainLines function.shapeOf 1 function.body ++ braceClose ++ "\n") := by
  rw [listing, blockLines_plain 1 function.body known]
  rfl

/-- A plain listing tells the function: its name, its instructions and the shapes of the buffers
that it allocates. -/
theorem listing_tells_function {left right : Function} (left_writable : left.Writable)
    (right_writable : right.Writable) :
    ∃ first second, left.listing .plain = .ok first ∧ right.listing .plain = .ok second ∧
      (first = second → left.name = right.name ∧ left.body = right.body ∧
        ∀ buffer, .alloc buffer ∈ blockParts left.body →
          left.shape? buffer = right.shape? buffer) := by
  refine ⟨_, _, listing_plain left_writable.known, listing_plain right_writable.known, ?_⟩
  intro same
  have lists_eq := congrArg String.toList same
  simp only [String.toList_append, List.append_assoc, List.append_cancel_left_eq] at lists_eq
  obtain ⟨name_eq, bodies⟩ :=
    (legible_name left_writable.named right_writable.named).before rfl rfl lists_eq
  simp only [List.append_cancel_left_eq] at bodies
  obtain ⟨⟨body_eq, allocated⟩, -⟩ := tells_block 0 left.body right.body left_writable.numbers
    right_writable.numbers ⟨_, rfl⟩ ⟨_, rfl⟩ bodies
  refine ⟨name_eq, body_eq, fun buffer member => ?_⟩
  rw [shape?_eq_some (left_writable.known buffer member), allocated buffer member,
    shape?_eq_some (right_writable.known buffer (body_eq ▸ member))]

/-- Stores a number in elements of a buffer. -/
def filling (step : Nat) : Function where
  name := "main"
  buffers := ⟨#[⟨⟨[4]⟩, ⟨"main", 1, 1⟩⟩]⟩
  registerCount := 0
  loopVariableCount := 1
  body := [
    .alloc ⟨0⟩,
    .loop ⟨0⟩ 0 4 step [.store (.immediate 2.5) ⟨0⟩ [.loopVariable ⟨0⟩]],
    .dealloc ⟨0⟩,
    .leave]

theorem filling_writable (step : Nat) : (filling step).Writable where
  named := by simp [filling, IsName, isWordPart]
  numbers := by
    have number : magnitude 2.5 = .finite 5629499534213120 (-51) := rfl
    simp [filling, blockParts, Instruction.parts, Instruction.operands, Operand.IsNumber,
      ne_nan_of_finite number]
  known := by
    simp [filling, blockParts, Instruction.parts, shape?, Arena.get?]

theorem listing_tells_function_filling :
    (filling 1).Writable ∧ (filling 2).Writable ∧
      ∃ first second, (filling 1).listing .plain = .ok first ∧
        (filling 2).listing .plain = .ok second ∧ first ≠ second := by
  obtain ⟨first, second, first_eq, second_eq, told⟩ :=
    listing_tells_function (filling_writable 1) (filling_writable 2)
  refine ⟨filling_writable 1, filling_writable 2, first, second, first_eq, second_eq,
    fun same => ?_⟩
  obtain ⟨-, body_eq, -⟩ := told same
  simp [filling] at body_eq

end Function

end Loop

end TensorLang
