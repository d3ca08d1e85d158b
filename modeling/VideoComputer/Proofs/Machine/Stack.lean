import Mathlib.Data.List.Infix
import VideoComputer.Memory.Flat
import VideoComputer.Proofs.Machine.Journal
import VideoComputer.Proofs.Machine.Run
import VideoComputer.Proofs.Memory.Mirrors

/-!
# The stack

The stack page against a list. The stack pointer goes round its page, and on the console the page
folds onto the 128 cells of the memory chip, so that a push overwrites what lies 128 pushes back.
Main statement: as long as the depth stays within the cells that the page really has, every pull
returns what it would from a list, and nothing but the cells pushed to is changed; one push more
and the oldest byte is lost.
-/

namespace VideoComputer

/-! ## Sequences of pushes and pulls -/

inductive StackOperation where
  | push (value : Byte)
  | pull
deriving DecidableEq

namespace StackOperation

/-- How much higher the stack is in the end, less than nothing if more was pulled than pushed. -/
def depth : List StackOperation → Int
  | [] => 0
  | push _ :: rest => 1 + depth rest
  | pull :: rest => -1 + depth rest

/-- The depth, counted from `start`, is never negative and never above the limit. -/
def StaysWithin (limit start : Nat) (operations : List StackOperation) : Prop :=
  ∀ first ∈ operations.inits, 0 ≤ start + depth first ∧ start + depth first ≤ limit

instance (limit start : Nat) (operations : List StackOperation) :
    Decidable (StaysWithin limit start operations) :=
  inferInstanceAs (Decidable (∀ first ∈ operations.inits,
    0 ≤ start + depth first ∧ start + depth first ≤ limit))

/-- What the operations do to a list: the values pulled from it, and the list they leave. -/
def onList (stack : List Byte) : List StackOperation → List Byte × List Byte
  | [] => ([], stack)
  | push value :: rest => onList (value :: stack) rest
  | pull :: rest =>
    match stack with
    | [] => onList [] rest
    | value :: stack =>
      let (values, last) := onList stack rest
      (value :: values, last)

/-- The cells pushed to, with the values that they are given. -/
def writes (sp : Byte) : List StackOperation → List (Word × Byte)
  | [] => []
  | push value :: rest => (stackCell sp, value) :: writes (sp - 1) rest
  | pull :: rest => writes (sp + 1) rest

variable {limit start : Nat}

theorem StaysWithin.ofCons {operation : StackOperation} {rest : List StackOperation}
    (h : StaysWithin limit start (operation :: rest)) :
    ∀ first ∈ rest.inits, 0 ≤ (start : Int) + depth (operation :: first) ∧
      (start : Int) + depth (operation :: first) ≤ limit := by
  intro first hfirst
  apply h
  simpa [List.inits] using hfirst

theorem StaysWithin.ofPush {value : Byte} {rest : List StackOperation}
    (h : StaysWithin limit start (push value :: rest)) :
    start < limit ∧ StaysWithin limit (start + 1) rest := by
  have hcons := h.ofCons
  simp only [depth] at hcons
  constructor
  · have hhead := hcons [] (by simp [List.mem_inits])
    simp only [depth] at hhead
    omega
  · intro first hfirst
    have hrest := hcons first hfirst
    omega

theorem StaysWithin.ofPull {rest : List StackOperation}
    (h : StaysWithin limit start (pull :: rest)) :
    ∃ below, start = below + 1 ∧ StaysWithin limit below rest := by
  have hcons := h.ofCons
  simp only [depth] at hcons
  have hhead := hcons [] (by simp [List.mem_inits])
  simp only [depth] at hhead
  refine ⟨start - 1, by omega, fun first hfirst ↦ ?_⟩
  have hrest := hcons first hfirst
  omega

theorem depth_pushes (values : List Byte) : depth (values.map push) = values.length := by
  induction values with
  | nil => rfl
  | cons value values ih =>
    rw [List.map_cons, depth, ih, List.length_cons]
    omega

theorem staysWithin_pushes (values : List Byte) (hlimit : start + values.length ≤ limit) :
    StaysWithin limit start (values.map push) := by
  intro first hfirst
  have htake := List.prefix_iff_eq_take.mp ((List.mem_inits _ _).mp hfirst)
  have hlength := List.length_take_le' first.length values
  rw [← List.map_take] at htake
  rw [htake, depth_pushes]
  omega

theorem onList_pushes (stack values : List Byte) (rest : List StackOperation) :
    onList stack (values.map push ++ rest) = onList (values.reverse ++ stack) rest := by
  induction values generalizing stack with
  | nil => rfl
  | cons value values ih =>
    rw [List.map_cons, List.cons_append, onList, ih, List.reverse_cons, List.append_assoc]
    rfl

theorem onList_pulls (stack : List Byte) :
    onList stack (List.replicate stack.length pull) = (stack, []) := by
  induction stack with
  | nil => rfl
  | cons value stack ih => rw [List.length_cons, List.replicate_succ, onList, ih]

end StackOperation

open StackOperation

/-! ## The stack page -/

namespace Bus

variable {B : Type} [Bus B]

/-- A bus on which the cells of the stack page are `limit` different bytes, one after the other. -/
structure StackPage (B : Type) [Bus B] (Same : Word → Word → Prop) (limit : Nat) : Prop where
  read_of_same (bus : B) {address other : Word} (value : Byte) (h : Same address other) :
    Bus.read (Bus.write bus address value) other = value
  read_of_not_same (bus : B) {address other : Word} (value : Byte) (h : ¬Same address other) :
    Bus.read (Bus.write bus address value) other = Bus.read bus other
  same_stackCell (sp : Byte) : Same (stackCell sp) (stackCell sp)
  not_same_stackCell (sp : Byte) {distance : Nat} (hpositive : 0 < distance)
    (hdistance : distance < limit) : ¬Same (stackCell sp) (stackCell (sp + UInt8.ofNat distance))

/-- The bytes that the next pulls return. -/
def stacked (bus : B) (sp : Byte) : Nat → List Byte
  | 0 => []
  | count + 1 => Bus.read bus (stackCell (sp + 1)) :: stacked bus (sp + 1) count

theorem stacked_add (bus : B) (sp : Byte) (first second : Nat) :
    stacked bus sp (first + second) =
      stacked bus sp first ++ stacked bus (sp + UInt8.ofNat first) second := by
  induction first generalizing sp with
  | zero => simp [stacked]
  | succ first ih =>
    have hsp : sp + 1 + UInt8.ofNat first = sp + UInt8.ofNat (first + 1) := by
      rw [UInt8.ofNat_add, UInt8.add_comm (UInt8.ofNat first), ← UInt8.add_assoc]
      rfl
    rw [Nat.succ_add, stacked, ih, hsp]
    rfl

variable {Same : Word → Word → Prop} {limit : Nat}

/-- A push leaves alone what lies less than `limit` above it. -/
theorem StackPage.stacked_write (hpage : StackPage B Same limit) (bus : B) (sp value : Byte)
    {distance count : Nat} (h : distance + count < limit) :
    stacked (Bus.write bus (stackCell sp) value) (sp + UInt8.ofNat distance) count =
      stacked bus (sp + UInt8.ofNat distance) count := by
  induction count generalizing distance with
  | zero => rfl
  | succ count ih =>
    have hsp : sp + UInt8.ofNat distance + 1 = sp + UInt8.ofNat (distance + 1) := by
      rw [UInt8.ofNat_add, ← UInt8.add_assoc]
      rfl
    rw [stacked, stacked, hsp,
      hpage.read_of_not_same bus value
        (hpage.not_same_stackCell sp (Nat.succ_pos distance) (by omega)),
      ih (by omega)]

theorem StackPage.stacked_push (hpage : StackPage B Same limit) (bus : B) (sp value : Byte)
    {count : Nat} (h : count < limit) :
    stacked (Bus.write bus (stackCell sp) value) (sp - 1) (count + 1) =
      value :: stacked bus sp count := by
  have hbelow : sp - 1 + 1 = sp := UInt8.sub_add_cancel sp 1
  have hsp : sp + UInt8.ofNat 0 = sp := UInt8.add_zero sp
  have hrest : stacked (Bus.write bus (stackCell sp) value) (sp + UInt8.ofNat 0) count =
      stacked bus (sp + UInt8.ofNat 0) count := hpage.stacked_write bus sp value (by omega)
  rw [hsp] at hrest
  rw [stacked, hbelow, hpage.read_of_same bus value (hpage.same_stackCell sp), hrest]

end Bus

namespace Machine

variable {B : Type} [Bus B] {m m' : Machine B}

/-- Performs pushes and pulls in order; tells what the pulls return, and the machine they leave. -/
def performStack (m : Machine B) : List StackOperation → List Byte × Machine B
  | [] => ([], m)
  | .push value :: rest => (m.push value).performStack rest
  | .pull :: rest =>
    let (value, m) := m.pull
    let (values, last) := m.performStack rest
    (value :: values, last)

theorem bus_push (m : Machine B) (value : Byte) :
    (m.push value).bus = Bus.write m.bus (stackCell m.processor.sp) value := by
  rw [← Processor.stackAddress_eq]
  rfl

theorem pull_fst (m : Machine B) :
    m.pull.1 = Bus.read m.bus (stackCell (m.processor.sp + 1)) :=
  congrArg (Bus.read m.bus) (Processor.stackAddress_eq _)

theorem performStack_append (m : Machine B) (first second : List StackOperation) :
    m.performStack (first ++ second) =
      let (values, m') := m.performStack first
      let (others, last) := m'.performStack second
      (values ++ others, last) := by
  induction first generalizing m with
  | nil => rfl
  | cons operation first ih =>
    cases operation with
    | push value => exact ih (m.push value)
    | pull => simp only [List.cons_append, performStack, ih]

/-- The stack pointer counts the depth, round and round its page. -/
theorem sp_performStack (m : Machine B) (operations : List StackOperation) :
    ((m.performStack operations).2.processor.sp.toNat : Int) =
      (m.processor.sp.toNat - depth operations) % 256 := by
  induction operations generalizing m with
  | nil =>
    have hsp := m.processor.sp.toNat_lt
    simp only [performStack, depth]
    omega
  | cons operation rest ih =>
    cases operation with
    | push value =>
      have hsp : (m.push value).processor.sp.toNat = (m.processor.sp.toNat + 255) % 256 := by
        change (m.processor.sp - 1).toNat = _
        rw [UInt8.toNat_sub, Nat.add_comm]
        rfl
      rw [performStack, ih, hsp, depth]
      omega
    | pull =>
      have hsp : m.pull.2.processor.sp.toNat = (m.processor.sp.toNat + 1) % 256 :=
        UInt8.toNat_add m.processor.sp 1
      simp only [performStack, ih, hsp, depth]
      omega

/-- Pushes and pulls move the stack pointer and make the writes of the pushes. -/
theorem performStack_within (m : Machine B) (operations : List StackOperation) :
    m.Within { registers := [.sp], writes := writes m.processor.sp operations }
      (m.performStack operations).2 := by
  induction operations generalizing m with
  | nil => exact ⟨⟨fun _ _ ↦ rfl, fun _ _ ↦ rfl, rfl⟩, rfl⟩
  | cons operation rest ih =>
    cases operation with
    | push value =>
      have hboth := (Within.push value).trans (ih (m.push value))
      exact hboth.mono (by simp) (by simp) rfl
    | pull =>
      have hboth := Within.pull.trans (ih m.pull.2)
      exact hboth.mono (by simp) (by simp) rfl

theorem bus_performStack (m : Machine B) (operations : List StackOperation) :
    (m.performStack operations).2.bus = (m.writeEach (writes m.processor.sp operations)).bus := by
  have hbus := congrArg Machine.bus (m.performStack_within operations).outside
  exact hbus

variable {Same : Word → Word → Prop} {limit : Nat}

/-- From a stack that is held the pulls return what they would from the list, and the stack is held
again in the end. -/
theorem performStack_eq_onList (hpage : Bus.StackPage B Same limit) (m : Machine B)
    (stack : List Byte) (hheld : Bus.stacked m.bus m.processor.sp stack.length = stack)
    {operations : List StackOperation} (hwithin : StaysWithin limit stack.length operations) :
    (m.performStack operations).1 = (onList stack operations).1 ∧
      Bus.stacked (m.performStack operations).2.bus (m.performStack operations).2.processor.sp
        (onList stack operations).2.length = (onList stack operations).2 := by
  induction operations generalizing m stack with
  | nil => exact ⟨rfl, hheld⟩
  | cons operation rest ih =>
    cases operation with
    | push value =>
      obtain ⟨hroom, hrest⟩ := hwithin.ofPush
      have hpushed := hpage.stacked_push m.bus m.processor.sp value hroom
      rw [hheld, ← bus_push] at hpushed
      exact ih (m.push value) (value :: stack) hpushed hrest
    | pull =>
      obtain ⟨below, hlength, hrest⟩ := hwithin.ofPull
      obtain ⟨value, stack, rfl⟩ := List.exists_cons_of_length_eq_add_one hlength
      obtain rfl := Nat.succ.inj hlength
      rw [List.length_cons, Bus.stacked, ← pull_fst] at hheld
      obtain ⟨hvalue, hpulled⟩ := List.cons.inj hheld
      have hstack := ih m.pull.2 stack hpulled hrest
      exact ⟨congrArg₂ List.cons hvalue hstack.1, hstack.2⟩

/-- Writes change only the bytes that share an address with one of theirs. -/
theorem read_writeEach (hpage : Bus.StackPage B Same limit) (m : Machine B)
    {entries : List (Word × Byte)} {address : Word}
    (haddress : ∀ entry ∈ entries, ¬Same entry.1 address) :
    Bus.read (m.writeEach entries).bus address = Bus.read m.bus address := by
  induction entries generalizing m with
  | nil => rfl
  | cons entry entries ih =>
    obtain ⟨hentry, hrest⟩ := List.forall_mem_cons.mp haddress
    rw [writeEach, ih _ hrest, bus_write, hpage.read_of_not_same m.bus entry.2 hentry]

/-- Pushes change only the bytes that share an address with a cell pushed to. -/
theorem read_performStack (hpage : Bus.StackPage B Same limit) {operations : List StackOperation}
    {address : Word}
    (haddress : ∀ entry ∈ writes m.processor.sp operations, ¬Same entry.1 address) :
    Bus.read (m.performStack operations).2.bus address = Bus.read m.bus address := by
  rw [bus_performStack]
  exact read_writeEach hpage m haddress

/-- The stack page does for these operations what a list would, and nothing else happens. -/
structure StackServes (Same : Word → Word → Prop) (m : Machine B)
    (operations : List StackOperation) : Prop where
  pulled : (m.performStack operations).1 = (onList [] operations).1
  sp : ((m.performStack operations).2.processor.sp.toNat : Int) =
    (m.processor.sp.toNat - depth operations) % 256
  within : m.Within { registers := [.sp], writes := writes m.processor.sp operations }
    (m.performStack operations).2
  elsewhere (address : Word) :
    (∀ entry ∈ writes m.processor.sp operations, ¬Same entry.1 address) →
      Bus.read (m.performStack operations).2.bus address = Bus.read m.bus address

theorem stackServes (hpage : Bus.StackPage B Same limit) (m : Machine B)
    {operations : List StackOperation} (hwithin : StaysWithin limit 0 operations) :
    m.StackServes Same operations where
  pulled := (performStack_eq_onList hpage m [] rfl hwithin).1
  sp := m.sp_performStack operations
  within := m.performStack_within operations
  elsewhere _ haddress := read_performStack hpage haddress

/-- Pulls look at the stack page and nothing more. -/
theorem performStack_pulls (m : Machine B) (count : Nat) :
    (m.performStack (List.replicate count .pull)).1 = Bus.stacked m.bus m.processor.sp count := by
  induction count generalizing m with
  | zero => rfl
  | succ count ih =>
    rw [List.replicate_succ, Bus.stacked, ← pull_fst]
    exact congrArg (m.pull.1 :: ·) (ih m.pull.2)

end Machine

/-! ## The two memories -/

theorem toNat_stackCell (sp : Byte) : (stackCell sp).toNat = 256 + sp.toNat := by
  have hsp := sp.toNat_lt
  have h256 : UInt16.toNat 0x0100 = 256 := rfl
  rw [stackCell, UInt16.toNat_add, UInt8.toNat_toUInt16, h256]
  omega

theorem FlatMemory.stackPage : Bus.StackPage FlatMemory Eq 256 where
  read_of_same memory address other value h := by
    subst h
    exact (memory.read_write address address value).trans (if_pos rfl)
  read_of_not_same memory address other value h :=
    (memory.read_write address other value).trans (if_neg (Ne.symm h))
  same_stackCell _ := rfl
  not_same_stackCell sp distance hpositive hdistance h := by
    have hsp := sp.toNat_lt
    have hcells := congrArg UInt16.toNat h
    rw [toNat_stackCell, toNat_stackCell, UInt8.toNat_add, UInt8.toNat_ofNat'] at hcells
    omega

namespace ConsoleBus

/-- The stack page is the memory chip twice over. -/
theorem decode_stackCell (sp : Byte) :
    Region.decode (stackCell sp) = .riot ⟨sp.toNat % 128, Nat.mod_lt _ (by decide)⟩ := by
  have hsp := sp.toNat_lt
  have hcell := toNat_stackCell sp
  rw [Region.decode]
  simp only [hcell]
  rw [if_neg (by omega), if_pos (by omega)]
  exact congrArg Region.riot (Fin.ext (by simp only; omega))

/-- A write to the stack page reaches neither the television chip nor the cartridge. -/
theorem chips_write_stackCell (bus : ConsoleBus) (sp value : Byte) :
    (bus.write (stackCell sp) value).tia = bus.tia ∧
      (bus.write (stackCell sp) value).cartridge = bus.cartridge := by
  rw [write, decode_stackCell]
  exact ⟨rfl, rfl⟩

theorem aliases_stackCell (sp other : Byte) :
    Aliases (stackCell sp) (stackCell other) ↔ sp.toNat % 128 = other.toNat % 128 := by
  rw [Aliases, ← Region.decode_eq_named, ← Region.decode_eq_named, decode_stackCell,
    decode_stackCell]
  simp [Region.IsWritable]

/-- Cells 128 apart are one. -/
theorem stacked_fold (bus : ConsoleBus) (sp : Byte) (count : Nat) :
    Bus.stacked bus (sp + 128) count = Bus.stacked bus sp count := by
  induction count generalizing sp with
  | zero => rfl
  | succ count ih =>
    have hsp : sp + 128 + 1 = sp + 1 + 128 := by
      rw [UInt8.add_assoc, UInt8.add_comm 128, UInt8.add_assoc]
    have hoffset : (sp + 1 + 128).toNat % 128 = (sp + 1).toNat % 128 := by
      rw [UInt8.toNat_add (sp + 1)]
      change ((sp + 1).toNat + 128) % 256 % 128 = _
      omega
    have hread : Bus.read bus (stackCell (sp + 1 + 128)) = Bus.read bus (stackCell (sp + 1)) := by
      change bus.read _ = bus.read _
      rw [read_eq_get, read_eq_get, decode_stackCell, decode_stackCell]
      simp only [hoffset]
    rw [Bus.stacked, Bus.stacked, hsp, hread, ih]

theorem stackPage : Bus.StackPage ConsoleBus Aliases 128 where
  read_of_same bus address other value h := (bus.read_write address other value).trans (if_pos h)
  read_of_not_same bus address other value h :=
    (bus.read_write address other value).trans (if_neg h)
  same_stackCell sp := (aliases_stackCell sp sp).mpr rfl
  not_same_stackCell sp distance hpositive hdistance h := by
    rw [aliases_stackCell, UInt8.toNat_add, UInt8.toNat_ofNat'] at h
    omega

end ConsoleBus

namespace Machine

/-- Pushes go to the memory chip and nowhere else. -/
theorem chips_performStack (m : Machine ConsoleBus) (operations : List StackOperation) :
    (m.performStack operations).2.bus.tia = m.bus.tia ∧
      (m.performStack operations).2.bus.cartridge = m.bus.cartridge := by
  induction operations generalizing m with
  | nil => exact ⟨rfl, rfl⟩
  | cons operation rest ih =>
    cases operation with
    | push value =>
      have hwrite : (m.push value).bus = m.bus.write (stackCell m.processor.sp) value :=
        bus_push m value
      obtain ⟨htia, hcartridge⟩ := m.bus.chips_write_stackCell m.processor.sp value
      rw [← hwrite] at htia hcartridge
      obtain ⟨htiaRest, hcartridgeRest⟩ := ih (m.push value)
      exact ⟨htiaRest.trans htia, hcartridgeRest.trans hcartridge⟩
    | pull => exact ih m.pull.2

/-- With a byte more than the chip has cells, the newest byte is pulled again where the oldest one
is due. -/
theorem performStack_overflow (m : Machine ConsoleBus) (first last : Byte) {middle : List Byte}
    (hmiddle : middle.length = 127) {operations : List StackOperation}
    (hoperations : operations =
      (first :: middle ++ [last]).map .push ++ List.replicate 129 .pull) :
    (m.performStack operations).1 = last :: middle.reverse ++ [last] ∧
      (onList [] operations).1 = last :: middle.reverse ++ [first] := by
  subst hoperations
  constructor
  · let pushed := ((m.push first).performStack ((middle ++ [last]).map .push)).2
    have hwithin : StaysWithin 128 0 ((middle ++ [last]).map .push) :=
      staysWithin_pushes _ (by simp [hmiddle])
    have hlist : onList [] ((middle ++ [last]).map .push) = ([], last :: middle.reverse) := by
      have hpushes := onList_pushes [] (middle ++ [last]) []
      rw [List.append_nil, List.append_nil, List.reverse_concat] at hpushes
      exact hpushes
    have hheld := performStack_eq_onList ConsoleBus.stackPage (m.push first) [] rfl hwithin
    rw [hlist, List.length_cons, List.length_reverse, hmiddle] at hheld
    obtain ⟨hnone, hstacked⟩ := hheld
    have hoverflow : Bus.stacked pushed.bus (pushed.processor.sp + 128) 1 = [last] := by
      rw [ConsoleBus.stacked_fold]
      exact congrArg (List.take 1) hstacked
    calc
      (m.performStack ((first :: middle ++ [last]).map .push ++ List.replicate 129 .pull)).1 =
          ((m.push first).performStack ((middle ++ [last]).map .push)).1 ++
            (pushed.performStack (List.replicate 129 .pull)).1 := by
        rw [List.cons_append, List.map_cons, List.cons_append, performStack, performStack_append]
      _ = Bus.stacked pushed.bus pushed.processor.sp (128 + 1) := by
        rw [hnone, performStack_pulls, List.nil_append]
      _ = last :: middle.reverse ++ [last] := by
        rw [Bus.stacked_add, hstacked]
        exact congrArg (last :: middle.reverse ++ ·) hoverflow
  · have hlength : (last :: middle.reverse ++ [first]).length = 129 := by simp [hmiddle]
    have hreverse : (first :: middle ++ [last]).reverse ++ [] =
        last :: middle.reverse ++ [first] := by simp
    rw [onList_pushes, hreverse, ← hlength, onList_pulls]

end Machine

/-! ## The instructions that use the stack -/

namespace Operation

/-- The pushes and pulls of an operation whose operand bytes begin at `start`. -/
def stackOperations {B : Type} (m : Machine B) (start : Word) (mode : AddressingMode) :
    Operation → List StackOperation
  | pha => [.push m.processor.a]
  | php => [.push (m.processor.status ||| 0x30)]
  | pla | plp => [.pull]
  | jsr =>
    let last := start + UInt16.ofNat mode.operandBytes - 1
    [.push last.high, .push last.low]
  | rts => [.pull, .pull]
  | brk =>
    [.push (start + 1).high, .push (start + 1).low, .push (m.processor.status ||| 0x30)]
  | rti => [.pull, .pull, .pull]
  | _ => []

inductive UsesStack : Operation → Prop where
  | pha : UsesStack .pha
  | php : UsesStack .php
  | pla : UsesStack .pla
  | plp : UsesStack .plp
  | jsr : UsesStack .jsr
  | rts : UsesStack .rts
  | brk : UsesStack .brk
  | rti : UsesStack .rti

/-- Where the pulled bytes have gone to once the operation is done. -/
def Takes (pulled : List Byte) (p : Processor) : Operation → Prop
  | pla => pulled = [p.a]
  | plp => ∃ status, pulled = [status] ∧ p.flags = .pulled status
  | rts => ∃ low high, pulled = [low, high] ∧ p.pc = .join low high + 1
  | rti => ∃ status low high, pulled = [status, low, high] ∧ p.flags = .pulled status ∧
      p.pc = .join low high
  | _ => pulled = []

/-- Nothing is taken into the count of cycles. -/
theorem takes_count (operation : Operation) (pulled : List Byte) (p : Processor) (cycles : Nat) :
    operation.Takes pulled { p with cycles := cycles } = operation.Takes pulled p := by
  cases operation <;> rfl

/-- An operation that leaves the stack pointer alone neither pushes nor pulls. -/
theorem stackOperations_eq_nil {B : Type} [Bus B] {m : Machine B} {start : Word}
    {mode : AddressingMode} {operation : Operation}
    (h : .sp ∉ (operation.footprint m start mode).registers) :
    operation.stackOperations m start mode = [] ∧ ∀ p, operation.Takes [] p := by
  cases operation <;> first
    | exact ⟨rfl, fun _ ↦ rfl⟩
    | exact absurd (by simp [footprint]) h

end Operation

namespace Machine

variable {B : Type} [Bus B] {m m' : Machine B}

/-- Two machines to which the same stack is in reach. -/
structure SameStack (m m' : Machine B) : Prop where
  bus : m.bus = m'.bus
  sp : m.processor.sp = m'.processor.sp

theorem SameStack.performStack (h : m.SameStack m') (operations : List StackOperation) :
    (m.performStack operations).1 = (m'.performStack operations).1 ∧
      (m.performStack operations).2.SameStack (m'.performStack operations).2 := by
  induction operations generalizing m m' with
  | nil => exact ⟨rfl, h⟩
  | cons operation rest ih =>
    cases operation with
    | push value =>
      apply ih
      refine ⟨?_, congrArg (· - 1) h.sp⟩
      rw [bus_push, bus_push, h.bus, h.sp]
    | pull =>
      have hpulled : m.pull.1 = m'.pull.1 := by rw [pull_fst, pull_fst, h.bus, h.sp]
      have hrest : m.pull.2.SameStack m'.pull.2 := ⟨h.bus, congrArg (· + 1) h.sp⟩
      obtain ⟨hvalues, hlast⟩ := ih hrest
      exact ⟨congrArg₂ List.cons hpulled hvalues, hlast⟩

/-- The pushes and pulls of the coming step. -/
def stackOperations (m : Machine B) : List StackOperation :=
  match Instruction.ofOpcode? (m.read m.processor.pc) with
  | some i => i.operation.stackOperations m (m.processor.pc + 1) i.mode
  | none => []

/-- A running machine whose coming instruction uses the stack, or else touches neither memory nor
stack pointer. -/
def KeepsToStack (m : Machine B) : Prop :=
  m.processor.halted = false ∧ ∃ i, Instruction.ofOpcode? (m.read m.processor.pc) = some i ∧
    (i.operation.UsesStack ∨
      (i.operation.footprint m (m.processor.pc + 1) i.mode).writes = [] ∧
        .sp ∉ (i.operation.footprint m (m.processor.pc + 1) i.mode).registers)

theorem execute_stack {mode : AddressingMode} {operation : Operation}
    (hstack : operation.UsesStack)
    (hmode : operation.action.NeedsAddress mode → mode.NamesAddress) :
    ∃ extra m', m.execute mode operation.action = (.ok extra, m') ∧
      m'.SameStack (m.performStack (operation.stackOperations m m.processor.pc mode)).2 ∧
      operation.Takes (m.performStack (operation.stackOperations m m.processor.pc mode)).1
        m'.processor := by
  have hstatus : m.processor.flags.pushed = m.processor.status ||| 0x30 := Flags.pushed_eq _
  cases hstack with
  | pha => exact ⟨0, _, rfl, ⟨rfl, rfl⟩, rfl⟩
  | php =>
    refine ⟨0, _, rfl, ?_, rfl⟩
    rw [hstatus]
    exact ⟨rfl, rfl⟩
  | pla => exact ⟨0, _, rfl, ⟨rfl, rfl⟩, rfl⟩
  | plp => exact ⟨0, _, rfl, ⟨rfl, rfl⟩, _, rfl, rfl⟩
  | jsr => exact ⟨0, _, call_eq (hmode trivial), ⟨rfl, rfl⟩, rfl⟩
  | rts => exact ⟨0, _, rfl, ⟨rfl, rfl⟩, _, _, rfl, rfl⟩
  | brk =>
    refine ⟨0, _, rfl, ?_, rfl⟩
    rw [Operation.stackOperations, ← hstatus]
    exact ⟨rfl, rfl⟩
  | rti => exact ⟨0, _, rfl, ⟨rfl, rfl⟩, _, _, _, rfl, rfl, rfl⟩

/-- Pushes and pulls do not depend on where the processor stands. -/
theorem stackOperations_fetched (m : Machine B) (start : Word) (mode : AddressingMode)
    (operation : Operation) :
    operation.stackOperations m.fetched start mode = operation.stackOperations m start mode := by
  obtain ⟨journal, hfetched⟩ := m.fetched_eq
  rw [hfetched]
  cases operation <;> rfl

/-- A step on the stack is its pushes and pulls, and the instruction takes what is pulled. -/
theorem step_stack (hkeeps : m.KeepsToStack) :
    ∃ i cycles m', Instruction.ofOpcode? (m.read m.processor.pc) = some i ∧
      m.step = (.ok cycles, m') ∧ m'.SameStack (m.performStack m.stackOperations).2 ∧
      i.operation.Takes (m.performStack m.stackOperations).1 m'.processor := by
  obtain ⟨hrunning, i, hdecode, hkeeps⟩ := hkeeps
  have hoperations : m.stackOperations =
      i.operation.stackOperations m (m.processor.pc + 1) i.mode := by
    rw [stackOperations, hdecode]
  rw [hoperations]
  cases hkeeps with
  | inl hstack =>
    have hfetched : m.fetched.SameStack m := ⟨m.bus_fetched, by rw [processor_fetched]⟩
    obtain ⟨extra, m', hexecute, hsame, htakes⟩ :=
      execute_stack (m := m.fetched) hstack (Instruction.namesAddress hdecode)
    rw [processor_fetched, stackOperations_fetched] at hsame htakes
    obtain ⟨hpulled, hlast⟩ := hfetched.performStack
      (i.operation.stackOperations m (m.processor.pc + 1) i.mode)
    refine ⟨i, _, _, hdecode, step_of_execute hrunning hdecode hexecute,
      ⟨hsame.bus.trans hlast.bus, hsame.sp.trans hlast.sp⟩, ?_⟩
    rw [processor_mapProcessor, Operation.takes_count, ← hpulled]
    exact htakes
  | inr hquiet =>
    obtain ⟨hwrites, hsp⟩ := hquiet
    obtain ⟨cycles, m', hstep, hwithin⟩ := step_within hrunning hdecode
    obtain ⟨hnone, htakes⟩ := Operation.stackOperations_eq_nil hsp
    have hbus := congrArg Machine.bus hwithin.outside
    rw [hwrites] at hbus
    have hpointer := hwithin.processor.register .sp hsp
    rw [processor_trace] at hpointer
    rw [hnone]
    exact ⟨i, cycles, m', hdecode, hstep, ⟨hbus.trans m.bus_trace, hpointer⟩, htakes _⟩

/-- The pushes and pulls of the first steps. -/
def stackHistory (m : Machine B) : Nat → List StackOperation
  | 0 => []
  | count + 1 => m.stackHistory count ++ (m.after count).stackOperations

theorem after_sameStack {count : Nat} (hkeeps : ∀ index < count, (m.after index).KeepsToStack) :
    (m.after count).SameStack (m.performStack (m.stackHistory count)).2 := by
  induction count with
  | zero => exact ⟨rfl, rfl⟩
  | succ count ih =>
    have hbefore := ih fun index hindex ↦ hkeeps index (Nat.lt_succ_of_lt hindex)
    obtain ⟨i, cycles, m', -, hstep, hsame, -⟩ := step_stack (hkeeps count (Nat.lt_succ_self count))
    have hlast := (hbefore.performStack (m.after count).stackOperations).2
    have hafter : m.after (count + 1) = m' := by rw [after_succ, hstep]
    rw [hafter, stackHistory, performStack_append]
    exact ⟨hsame.bus.trans hlast.bus, hsame.sp.trans hlast.sp⟩

/-- Each step of a run takes the next bytes that the history pulls. -/
theorem after_takes {count : Nat} (hkeeps : ∀ index ≤ count, (m.after index).KeepsToStack) :
    ∃ i pulled, Instruction.ofOpcode? ((m.after count).read (m.after count).processor.pc) = some i ∧
      (m.performStack (m.stackHistory (count + 1))).1 =
        (m.performStack (m.stackHistory count)).1 ++ pulled ∧
      i.operation.Takes pulled (m.after (count + 1)).processor := by
  have hbefore := after_sameStack fun index hindex ↦ hkeeps index (Nat.le_of_lt hindex)
  obtain ⟨i, cycles, m', hdecode, hstep, -, htakes⟩ := step_stack (hkeeps count (Nat.le_refl count))
  have hpulled := (hbefore.performStack (m.after count).stackOperations).1
  have hafter : m.after (count + 1) = m' := by rw [after_succ, hstep]
  refine ⟨i, _, hdecode, ?_, hafter ▸ htakes⟩
  rw [stackHistory, performStack_append, hpulled]

/-- **The stack is a list.** While the depth stays between 0 and 128 on the console, or 0 and 256
in flat memory, pulls return what they would from a list, the stack pointer is the start less the
depth around its page, and beyond the cells pushed to no byte changes. With 129 bytes on the
console the last pull returns the newest byte in place of the oldest. In a program the instructions
on the stack are such pushes and pulls, and what they take is what is pulled. -/
theorem stack_refines_list :
    (∀ (m : Machine ConsoleBus) operations, StaysWithin 128 0 operations →
      m.StackServes Aliases operations ∧ (m.performStack operations).2.bus.tia = m.bus.tia ∧
        (m.performStack operations).2.bus.cartridge = m.bus.cartridge) ∧
    (∀ (m : Machine FlatMemory) operations, StaysWithin 256 0 operations →
      m.StackServes Eq operations) ∧
    (∀ (m : Machine ConsoleBus) first last middle operations, middle.length = 127 →
      operations = (first :: middle ++ [last]).map .push ++ List.replicate 129 .pull →
      (m.performStack operations).1 = last :: middle.reverse ++ [last] ∧
        (onList [] operations).1 = last :: middle.reverse ++ [first]) ∧
    ∀ (B : Type) [Bus B] (m : Machine B) count,
      (∀ index < count, (m.after index).KeepsToStack) →
      (m.after count).SameStack (m.performStack (m.stackHistory count)).2 ∧
        ∀ index < count, ∃ i pulled,
          Instruction.ofOpcode? ((m.after index).read (m.after index).processor.pc) = some i ∧
          (m.performStack (m.stackHistory (index + 1))).1 =
            (m.performStack (m.stackHistory index)).1 ++ pulled ∧
          i.operation.Takes pulled (m.after (index + 1)).processor := by
  refine ⟨fun m operations hwithin ↦ ?_, fun m operations hwithin ↦ ?_,
    fun m first last _ _ hmiddle ↦ performStack_overflow m first last hmiddle,
    fun B _ m count hkeeps ↦ ⟨after_sameStack hkeeps, fun index hindex ↦ ?_⟩⟩
  · exact ⟨stackServes ConsoleBus.stackPage m hwithin, chips_performStack m operations⟩
  · exact stackServes FlatMemory.stackPage m hwithin
  · exact after_takes fun earlier hearlier ↦ hkeeps earlier (Nat.lt_of_le_of_lt hearlier hindex)

/-- Three bytes pushed through the end of the page come back in reverse; a byte too many comes back
twice; and an interrupt in empty memory leaves three bytes on the stack. -/
theorem stack_refines_list_wrapping :
    let m : Machine ConsoleBus := { processor := { Processor.initial 0 with sp := 1 }, bus := {} }
    StaysWithin 128 0 [.push 1, .push 2, .push 3, .pull, .pull, .pull] ∧
    (m.performStack [.push 1, .push 2, .push 3, .pull, .pull, .pull]).1 = [3, 2, 1] ∧
    (List.replicate 127 (0 : Byte)).length = 127 ∧
    (m.performStack (((1 : Byte) :: List.replicate 127 0 ++ [2]).map .push ++
      List.replicate 129 .pull)).1.getLast? = some 2 ∧
    (∀ index < 1, ((powerOn ({} : ConsoleBus)).after index).KeepsToStack) ∧
    ((powerOn ({} : ConsoleBus)).after 1).processor.sp = 0xFC := by
  intro m
  obtain ⟨hconsole, -, hoverflow, hprogram⟩ := stack_refines_list
  have hwithin : StaysWithin 128 0 [.push 1, .push 2, .push 3, .pull, .pull, .pull] := by decide
  have hpulled := (hconsole m _ hwithin).1.pulled
  have hlength : (List.replicate 127 (0 : Byte)).length = 127 := List.length_replicate
  have hlast := (hoverflow m 1 2 (List.replicate 127 0) _ hlength rfl).1
  have hkeeps : ∀ index < 1, ((powerOn ({} : ConsoleBus)).after index).KeepsToStack := by
    intro index hindex
    obtain rfl := Nat.lt_one_iff.mp hindex
    have hdecode : Instruction.ofOpcode? ((powerOn ({} : ConsoleBus)).read 0) =
        some ⟨.brk, .implicit, 7⟩ := rfl
    exact ⟨rfl, _, hdecode, .inl .brk⟩
  have hsp := (hprogram ConsoleBus (powerOn {}) 1 hkeeps).1.sp
  refine ⟨hwithin, hpulled, hlength, ?_, hkeeps, hsp.trans rfl⟩
  rw [hlast]
  exact List.getLast?_concat

end Machine

end VideoComputer
