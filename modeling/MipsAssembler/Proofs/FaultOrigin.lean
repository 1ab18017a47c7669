import Mathlib
import MipsAssembler.Proofs.MachineCode
import MipsAssembler.Proofs.Reading

/-!
# Where a fault comes from

An assembly has four stages, and each kind of fault belongs to one of them: scanning
has the lexical faults, reading the faults of syntax, placing and resolving labels the
faults of resolution, and packing the faults of range.  The one overlap is that reading
has faults of range too, for numerals that are too long and registers that do not exist.
`FaultOrigin` lists the four cases with the results of the stages before.

The kinds that are missing from the list stand for the faults of passes that are handed items
which no reader builds: a label, an unknown spelling, an operand that is missing or of the
wrong sort.  That source text never leads to them needs no argument of its own here, since the
packer was shown to do nothing but check numbers on the items of statements.

On the side of success, the words of a program are texts of 32 binary digits, which are
therefore read back without fault, and its listing consists of lines of eight
hexadecimal digits.
-/

namespace MipsAssembler

namespace Statement

/-! ## The faults of linking and packing -/

/-- Placing and resolving labels has faults of resolution only. -/
theorem failsOnly_link (program : List Statement) :
    Outcome.FailsOnly (fun fault : Fault => fault.kind = .resolution) (link (toItems program)) := by
  intro fault h
  rcases Outcome.bind_eq_error_iff.mp h with hlayout | ⟨l, hlayout, hresolve⟩
  · obtain ⟨name, rfl, -⟩ := Layout.ofItems_eq_error_iff.mp hlayout
    rfl
  · have hl := Layout.describes_of_ofItems hlayout
    obtain ⟨_, _, name, _, _, _, rfl, _⟩ := (resolve_eq_error_iff_undeclared hl).mp hresolve
    rfl

section Linked

variable {program : List Statement} {linked : List Item}

/-- A linked item is packed, or its number does not fit. -/
theorem failsOnly_pack_of_mem_link (h : link (toItems program) = .ok linked) {item : Item}
    (hitem : item ∈ linked) :
    Outcome.FailsOnly (fun fault : Fault => fault.kind = .range) item.pack := by
  obtain ⟨l, hlayout, hresolved⟩ := Outcome.bind_eq_ok_iff.mp h
  obtain ⟨i, hi⟩ := List.mem_iff_getElem?.mp hitem
  obtain ⟨s, -, houtcomes⟩ :=
    outcomes_of_getElem?_resolve (Layout.describes_of_ofItems hlayout) hresolved hi
  intro fault hfault
  obtain ⟨field, v, -, -, rfl⟩ := houtcomes.eq_error_iff.mp hfault
  exact field.kind_overflow v

/-- Packing what was linked has faults of range only. -/
theorem failsOnly_packAll (h : link (toItems program) = .ok linked) :
    Outcome.FailsOnly (fun fault : Fault => fault.kind = .range) (Item.packAll linked) := by
  intro fault hfault
  obtain ⟨_, item, hitem, hpack, -⟩ := Outcome.mapM_eq_error_iff.mp hfault
  exact failsOnly_pack_of_mem_link h (List.mem_of_getElem? hitem) fault hpack

/-- Every operation that was linked has a row in the instruction table. -/
theorem exists_row_of_mem_link (h : link (toItems program) = .ok linked) {name : String}
    {args : List Operand} (hitem : .operation name args ∈ linked) :
    ∃ row, InstructionSpec.ofName name = .ok row := by
  cases hname : Mnemonic.ofName? name with
  | some m => exact ⟨m.spec, by rw [InstructionSpec.ofName, hname]⟩
  | none =>
    -- a spelling without a row would be refused with an internal fault
    have hpack : (Item.operation name args).pack = .error (.unknownOperation name) := by
      rw [Item.pack, Item.packOperation, hname]
    have hkind := failsOnly_pack_of_mem_link h hitem _ hpack
    cases hkind

end Linked

end Statement

/-! ## The stage of a fault -/

/-- The stage in which the fault of a source text arises, and the kinds of faults that
arise there. -/
inductive FaultOrigin (source : String) (fault : Fault) : Prop
  | scan (hscan : Token.scan source = .error fault) (kind : fault.kind = .lex)
  | read {tokens : List Token} (hscan : Token.scan source = .ok tokens)
      (hread : Statement.read tokens = .error fault)
      (kind : fault.kind = .reading ∨ fault.kind = .range)
  | link {tokens : List Token} {program : List Statement}
      (hscan : Token.scan source = .ok tokens) (hread : Statement.read tokens = .ok program)
      (hlink : link (Statement.toItems program) = .error fault) (kind : fault.kind = .resolution)
  | pack {tokens : List Token} {program : List Statement} {linked : List Item}
      (hscan : Token.scan source = .ok tokens) (hread : Statement.read tokens = .ok program)
      (hlink : MipsAssembler.link (Statement.toItems program) = .ok linked)
      (hpack : Item.packAll linked = .error fault) (kind : fault.kind = .range)

/-- An assembly fails exactly when one of its stages does. -/
theorem assemble_eq_error_iff {source : String} {fault : Fault} :
    assemble source = .error fault ↔ FaultOrigin source fault := by
  constructor
  · intro h
    rcases Outcome.bind_eq_error_iff.mp h with hscan | ⟨tokens, hscan, h⟩
    · exact .scan hscan (Token.failsOnly_scan source fault hscan)
    rcases Outcome.bind_eq_error_iff.mp h with hread | ⟨program, hread, h⟩
    · exact .read hscan hread (Statement.failsOnly_read tokens fault hread)
    rcases Outcome.bind_eq_error_iff.mp h with hlink | ⟨linked, hlink, hpack⟩
    · exact .link hscan hread hlink (Statement.failsOnly_link program fault hlink)
    · exact .pack hscan hread hlink hpack (Statement.failsOnly_packAll hlink fault hpack)
  · intro h
    unfold assemble
    cases h with
    | scan hscan => rw [hscan, Outcome.error_bind]
    | read hscan hread => rw [hscan, Outcome.ok_bind, hread, Outcome.error_bind]
    | link hscan hread hlink =>
      rw [hscan, Outcome.ok_bind, hread, Outcome.ok_bind, hlink, Outcome.error_bind]
    | pack hscan hread hlink hpack =>
      rw [hscan, Outcome.ok_bind, hread, Outcome.ok_bind, hlink, Outcome.ok_bind, hpack]

section Kinds

variable {source : String} {fault : Fault}

/-- The four kinds of faults that a source text can have; a lexical one is that of its
scan. -/
theorem FaultOrigin.kind_cases (h : FaultOrigin source fault) :
    (fault.kind = .lex ∧ Token.scan source = .error fault) ∨ fault.kind = .reading ∨
      fault.kind = .resolution ∨ fault.kind = .range := by
  cases h with
  | scan hscan kind => exact Or.inl ⟨kind, hscan⟩
  | read _ _ kind =>
    rcases kind with kind | kind
    · exact Or.inr (Or.inl kind)
    · exact Or.inr (Or.inr (Or.inr kind))
  | link _ _ _ kind => exact Or.inr (Or.inr (Or.inl kind))
  | pack _ _ _ _ kind => exact Or.inr (Or.inr (Or.inr kind))

theorem FaultOrigin.kind_mem (h : FaultOrigin source fault) :
    fault.kind ∈ [.lex, .reading, .resolution, .range] := by
  rcases h.kind_cases with ⟨kind, -⟩ | kind | kind | kind <;> rw [kind] <;> decide

theorem FaultOrigin.scan_of_kind_eq_lex (h : FaultOrigin source fault) (hlex : fault.kind = .lex) :
    Token.scan source = .error fault := by
  rcases h.kind_cases with ⟨-, hscan⟩ | kind | kind | kind
  · exact hscan
  all_goals exact absurd (hlex.symm.trans kind) (by decide)

end Kinds

/-- The listing of a text that assembles. -/
theorem assembleListing_eq_ok {source : String} {words : List Word}
    (h : assemble source = .ok words) :
    assembleListing source = .ok (Listing.joined (Listing.Format.hex.lines words)) := by
  rw [assembleListing, h]
  rfl

/-- **Every fault of a source text comes from a stage that has faults of its kind, and none
is internal or of a kind that the assembler does not look for.**  The lexical faults are
exactly the faults of the scan.  Numbers that were read can be written again, and every
operation that reaches the packer is in the instruction table.  If the text assembles, its
words are texts of 32 binary digits, which the hexadecimal listing reads without fault, and
every line of that listing has eight hexadecimal digits. -/
theorem assemble_fault_origin (source : String) :
    (∀ fault, assemble source = .error fault ↔ FaultOrigin source fault) ∧
    (∀ fault, assemble source = .error fault →
      fault.kind ∈ [.lex, .reading, .resolution, .range]) ∧
    (∀ fault, (assemble source = .error fault ∧ fault.kind = .lex) ↔
      Token.scan source = .error fault) ∧
    (∀ tokens program, Token.scan source = .ok tokens → Statement.read tokens = .ok program →
      (∀ s ∈ program, ∀ v, s.number? = some v → Literal.Writable v) ∧
      ∀ linked, link (Statement.toItems program) = .ok linked →
        ∀ name args, .operation name args ∈ linked →
          ∃ row, InstructionSpec.ofName name = .ok row) ∧
    ∀ words, assemble source = .ok words →
      (∀ w ∈ words, w.toBinary.length = 32 ∧ (∀ c ∈ w.toBinary.toList, c = '0' ∨ c = '1') ∧
        Listing.hexOfText w.toBinary = .ok w.toHex) ∧
      ∃ text, assembleListing source = .ok text ∧
        Listing.printedLines text = words.map (fun w => w.toHex.toList) ∧
        ∀ line ∈ Listing.printedLines text, line.length = 8 ∧ ∀ c ∈ line, c ∈ hexDigits := by
  refine ⟨fun fault => assemble_eq_error_iff, fun fault h => ?_, fun fault => ⟨?_, ?_⟩, ?_, ?_⟩
  · exact (assemble_eq_error_iff.mp h).kind_mem
  · exact fun h => (assemble_eq_error_iff.mp h.1).scan_of_kind_eq_lex h.2
  · intro hscan
    have kind := Token.failsOnly_scan source fault hscan
    exact ⟨assemble_eq_error_iff.mpr (.scan hscan kind), kind⟩
  · intro tokens program hscan hread
    have hadmissible := Statement.admissible_of_read (Token.wellFormed_of_scan hscan) hread
    exact ⟨fun s hs v hv => (hadmissible s hs).writable hv,
      fun linked hlink name args hmem => Statement.exists_row_of_mem_link hlink hmem⟩
  · intro words h
    refine ⟨fun w _ => ⟨w.length_toBinary, w.allBinary_toBinary, w.hexOfText_toBinary⟩,
      _, assembleListing_eq_ok h, Listing.printedLines_hex words, fun line hline => ?_⟩
    rw [Listing.printedLines_hex, List.mem_map] at hline
    obtain ⟨w, -, rfl⟩ := hline
    refine ⟨?_, fun c hc => Word.mem_hexDigits_of_mem_toHex hc⟩
    rw [String.length_toList, Word.length_toHex]

end MipsAssembler
