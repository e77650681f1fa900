import AssemblySymbols.Command.Run
import AssemblySymbols.Proofs.Session.DefinitionSites
import AssemblySymbols.Proofs.Session.TableOrigins

/-! Line and column of a site as they are printed, counted from one in 32 bits. Those of a definition on a
line of a text leave room for this, if the text is of any ordinary length. Those that the cache records
are taken as they are, so the highest number of all can stand there, and counted from one it is zero. -/
namespace AssemblySymbols

/-- Line and column can be counted from one. -/
structure Site.Printable (site : Site) : Prop where
  line : site.span.start.line.toNat + 1 < UInt32.size
  column : site.span.start.character.toNat + 1 < UInt32.size

theorem toNat_fromOne {number : UInt32} (room : number.toNat + 1 < UInt32.size) :
    (number + 1).toNat = number.toNat + 1 := by
  rw [UInt32.toNat_add]
  exact Nat.mod_eq_of_lt room

theorem fromOne_eq_zero_iff {number : UInt32} :
    number + 1 = 0 ↔ ¬number.toNat + 1 < UInt32.size := by
  have bound := number.toNat_lt
  rw [← UInt32.toNat_inj, UInt32.toNat_add]
  simp only [UInt32.toNat_one, UInt32.toNat_zero, UInt32.size] at bound ⊢
  omega

namespace Site

theorem printable_iff {site : Site} :
    site.Printable ↔ site.span.start.line + 1 ≠ 0 ∧ site.span.start.character + 1 ≠ 0 := by
  rw [Ne, Ne, fromOne_eq_zero_iff, fromOne_eq_zero_iff, not_not, not_not]
  exact ⟨fun printable => ⟨printable.line, printable.column⟩, fun ⟨line, column⟩ => ⟨line, column⟩⟩

theorem Printable.text_eq {site : Site} (printable : site.Printable) (root : Path) :
    site.text root = (Path.relativeTo? ⟨site.uri⟩ root).getD site.uri ++
      ":" ++ toString (site.span.start.line.toNat + 1) ++
      ":" ++ toString (site.span.start.character.toNat + 1) := by
  have line : toString (site.span.start.line + 1) = toString (site.span.start.line.toNat + 1) :=
    congrArg toString (toNat_fromOne printable.line)
  have column :
      toString (site.span.start.character + 1) = toString (site.span.start.character.toNat + 1) :=
    congrArg toString (toNat_fromOne printable.column)
  rw [text, line, column]

end Site

namespace LiveSession
variable {live : LiveSession} {ledger : Ledger} {may : Event → Prop}

/-- An initialization that cannot discover any files leaves all documents of the cache as they are. -/
theorem records_undiscovered (root : Path) (settings : Settings) (disk : Disk) {snapshot : Snapshot}
    (loaded : (start root settings disk).store.load = .ok snapshot) :
    ∃ live ledger, (start root settings disk).Records (· = .startUp) live ledger ∧
      ledger.cache = some snapshot ∧ ledger.files = none ∧
      live.session.initialized = some (.start 0) ∧
      live.session.index = (SymbolIndex.empty.restore snapshot).1 := by
  have begun : (start root settings disk).Records (· = .startUp) _ _ :=
    Records.refl.tail rfl (.startUp .begin)
  have seeding := begun.tail rfl (.startUp (.load loaded))
  have discovering := seeding.tail rfl (.startUp .seed)
  have closing := discovering.tail rfl (.startUp .undiscovered)
  have closed := closing.tail rfl (.startUp .close)
  exact ⟨_, _, closed, rfl, rfl, rfl, rfl⟩

/-- Whatever has been done to a session and whatever cache and files it has found: a place that it gives
for a query comes from a line of a text or from a record in the cache. In the first case line and column
can be counted from one, unless the text itself has lines or columns beyond counting. In the second they
are what the record says, and if the initialization is over, there is a reason why the document has not
been pruned. Line and column are printed as they are counted from one if they can be, and if not, one of
them is printed as zero. -/
theorem printed_positions (root : Path) (settings : Settings) (disk : Disk)
    (records : (start root settings disk).Records may live ledger) {query : String} {site : Site}
    (found : site ∈ live.session.index.definitionsOf query) :
    (∀ text, live.session.index.document? site.uri = some (.ofText text) → Countable text →
      site.Printable) ∧
    ((∃ text, live.session.index.document? site.uri = some (.ofText text)) ∨
      ∃ snapshot record part key, ledger.cache = some snapshot ∧ record ∈ snapshot.documents ∧
        record.uri = site.uri ∧ live.session.index.document? site.uri = some record.toTable ∧
        site.span ∈ ((record.buckets.get part).get? key).getD [] ∧
        ∀ stats, live.session.initialized = some stats → live.Excused ledger site.uri) ∧
    (site.Printable → ∀ base, site.text base = (Path.relativeTo? ⟨site.uri⟩ base).getD site.uri ++
      ":" ++ toString (site.span.start.line.toNat + 1) ++
      ":" ++ toString (site.span.start.character.toNat + 1)) ∧
    (¬site.Printable ↔ site.span.start.line + 1 = 0 ∨ site.span.start.character + 1 = 0) := by
  obtain ⟨traced, pruned⟩ := records.origins
  obtain ⟨-, reports⟩ := records.keeps
  obtain ⟨table, part, key, indexed, member⟩ := traced.coherent.document?_of_mem_definitionsOf found
  refine ⟨fun text same countable => ?_, ?_, Site.Printable.text_eq, ?_⟩
  · obtain rfl := Option.some.inj (indexed.symm.trans same)
    obtain ⟨number, line, definition, defined⟩ := SymbolTable.definedOn_of_mem_spansOf member
    obtain ⟨numbered, few, short, -⟩ := defined.bounds countable
    exact ⟨numbered ▸ few, short⟩
  · have listed : (site.uri, table) ∈ live.session.index.documents := mem_of_lookup indexed
    by_cases scanned : table.IsOfText
    · obtain ⟨text, rfl⟩ := scanned
      exact .inl ⟨text, indexed⟩
    · obtain ⟨snapshot, record, read, recorded, name, rfl⟩ :=
        (traced.origin _ listed).resolve_left scanned
      have spans := record.spansOf_toTable part key
      refine .inr ⟨snapshot, record, part, key, read, recorded, name, indexed, spans ▸ member, ?_⟩
      intro stats reported
      have ended : live.stage.IsOver := (reports stats reported).2 ▸ trivial
      exact (pruned ended _ listed).resolve_left scanned
  · rw [Site.printable_iff]
    tauto

/-- The highest line number of all in a cache, with no file discovered. -/
theorem printed_positions_lastLine :
    let span : Span := ⟨⟨4294967295, 0⟩, ⟨4294967295, 5⟩⟩
    let record : DocumentRecord :=
      ⟨"a.asm", { ByClass.replicate ∅ with labelsSensitive := .ofList [("start", [span])] }⟩
    ∃ live ledger,
      (start ⟨"/"⟩ (.defaults none) (.ofCache ⟨[record]⟩)).Records (· = .startUp) live ledger ∧
      live.session.initialized = some (.start 0) ∧
      live.session.index.definitionsOf "start" = [⟨"a.asm", span⟩] ∧
      ¬Site.Printable ⟨"a.asm", span⟩ ∧ Site.text ⟨"/"⟩ ⟨"a.asm", span⟩ = "a.asm:0:1" := by
  intro span record
  have path : (start ⟨"/"⟩ (.defaults none) (.ofCache ⟨[record]⟩)).store.cachePath =
      ⟨"/.asmdex/cache/symbols.json"⟩ := by decide +kernel
  have loaded : (start ⟨"/"⟩ (.defaults none) (.ofCache ⟨[record]⟩)).store.load = .ok ⟨[record]⟩ := by
    rw [CachedIndex.load, path]
    exact Cache.load_eq (Disk.read_ofCache _) (Snapshot.read?_write _)
  obtain ⟨live, ledger, records, -, -, reported, index⟩ := records_undiscovered _ _ _ loaded
  have found : live.session.index.definitionsOf "start" = [⟨"a.asm", span⟩] := by
    rw [index]
    decide +kernel
  obtain ⟨-, -, -, overflows⟩ := printed_positions ⟨"/"⟩ (.defaults none) _ records
    (found ▸ List.mem_singleton_self _)
  exact ⟨live, ledger, records, reported, found, overflows.mpr (.inl (by decide)), by decide +kernel⟩

end LiveSession
end AssemblySymbols
