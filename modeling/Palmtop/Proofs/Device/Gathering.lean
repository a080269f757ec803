import Palmtop.Proofs.Device.Bus
import Palmtop.Proofs.Device.Wiring
import Palmtop.Proofs.Transfer

/-! # Records are read database by database

Whatever is refused on the way, the records that a reader hands out over a connection to a proper
device follow one another database by database (`Reader.Gathers`).  Of the device it only matters
what it holds, which does not change as it is read (`Bus.Holds`).
-/
namespace Palmtop.Device

variable {bus bus' : Bus} {id : ConnectionId} {d : Device} {refusals : Bus.Refusals}

open Bus (sessionsWith notes_sessionsWith talks_self)

/-! ## What is at the other end -/

/-- At the other end of the connection is a device that holds what `d` holds. -/
def Bus.Holds (bus : Bus) (id : ConnectionId) (d : Device) : Prop :=
  ∃ n d', bus.Drives id n d' ∧ d'.holdings = d.holdings

theorem Bus.Holds.of_hears {news : Nat → List Exchange} (h : bus.Holds id d)
    (hears : bus.Hears news bus') (quiet : ∀ n, ∀ e ∈ news n, e.command.isMutation = false) :
    bus'.Holds id d := by
  obtain ⟨n, d', ⟨hd', c, hc, hcn⟩, hholdings⟩ := h
  obtain ⟨d'', hd'', hheard⟩ := hears.devices n d' hd'
  obtain ⟨c', hc', -, hdevice⟩ := hears.connections id c hc
  exact ⟨n, d'', ⟨hd'', c', hc', hdevice.trans hcn⟩,
    (hheard.holdings_eq (quiet n)).trans hholdings⟩

theorem nameOf?_of_holdings {d' : Device} (h : d'.holdings = d.holdings) :
    d'.nameOf? = d.nameOf? :=
  nameOf?_congr (names_of_holdings h)

/-- A command that changes no record leaves at the other end what was there, which answers it. -/
theorem Bus.Holds.run {c : Command} {answer : c.Answer} (h : bus.Holds id d)
    (hc : c.isMutation = false) (hrun : (sessionsWith refusals id).run c bus = (.ok answer, bus')) :
    bus'.Holds id d ∧ ∃ d' : Device, d'.holdings = d.holdings ∧ (d'.execute c).1 = .ok answer := by
  obtain ⟨n, d', ⟨hd', x, hx, hxn⟩, hholdings⟩ := h
  constructor
  · obtain ⟨said, htalks, quiet⟩ := (notes_sessionsWith refusals id).look
      ⟨[], talks_self id bus, List.forall_mem_nil _⟩ hrun hc
    refine Bus.Holds.of_hears ⟨n, d', ⟨hd', x, hx, hxn⟩, hholdings⟩ htalks.hears fun m e he => ?_
    unfold Bus.newsAt at he
    split at he
    · exact quiet e he
    · cases he
  · obtain ⟨m, d'', hm, hd'', hexecute⟩ := Bus.run_sessionsWith_eq_ok hrun
    have hm' : bus.numberAt? id = some n := by rw [Bus.numberAt?, hx, Option.map_some, hxn]
    obtain rfl : m = n := Option.some.inj (hm.symm.trans hm')
    obtain rfl : d'' = d' := Option.some.inj (hd''.symm.trans hd')
    exact ⟨d'', hholdings, hexecute⟩

theorem names_listing (d : Device) : d.listing.map (·.name) = d.databases.map (·.name) := by
  rw [listing, List.map_map]
  rfl

theorem listing_of_holdings {d' : Device} (h : d'.holdings = d.holdings) :
    d'.listing = d.listing := by
  have hlisting (d : Device) : d.listing = d.holdings.map fun p => ⟨p.1, p.2.size⟩ := by
    rw [listing, holdings, List.map_map]
    rfl
  rw [hlisting, hlisting, h]

/-- What lists its databases is there at the other end. -/
theorem Bus.holds_of_catalog {entries : List CatalogEntry}
    (hrun : (sessionsWith refusals id).catalog bus = (.ok entries, bus')) :
    ∃ d ∈ bus'.devices, bus'.Holds id d ∧ entries = d.listing := by
  obtain ⟨n, d, hn, hd, hexecute⟩ := Bus.run_sessionsWith_eq_ok hrun
  have hentries : entries = d.listing := by
    rw [execute] at hexecute
    split at hexecute
    · cases hexecute
    · exact (Except.ok.inj hexecute).symm
  have hholds : bus.Holds id d := ⟨n, d, ⟨hd, Option.map_eq_some_iff.mp hn⟩, rfl⟩
  obtain ⟨⟨m, d', hdrives, hholdings⟩, -⟩ := hholds.run rfl hrun
  exact ⟨d', List.mem_of_getElem? hdrives.device, ⟨m, d', hdrives, rfl⟩,
    hentries.trans (listing_of_holdings hholdings).symm⟩

/-- A database is looked up under its own name. -/
theorem Bus.Holds.databaseId {name : String} {database : DatabaseId} (h : bus.Holds id d)
    (hd : d.Proper)
    (hrun : (sessionsWith refusals id).databaseId name bus = (.ok database, bus')) :
    bus'.Holds id d ∧ d.nameOf? database = some name := by
  obtain ⟨hholds, d', hholdings, hexecute⟩ := h.run rfl hrun
  have hanswer : Device.session.databaseId name d' = (.ok database, (d'.run (.databaseId name)).2) :=
    Prod.ext hexecute rfl
  exact ⟨hholds, nameOf?_of_holdings hholdings ▸
    nameOf?_of_databaseId (hd.of_holdings hholdings) hanswer⟩

/-- A record that is read belongs to the database it is read from. -/
theorem Bus.Holds.readRecord {name : String} {database : DatabaseId} {slot : Slot} {record : Record}
    (h : bus.Holds id d) (hd : d.Proper) (hname : d.nameOf? database = some name)
    (hrun : (sessionsWith refusals id).readRecord database slot bus = (.ok record, bus')) :
    bus'.Holds id d ∧ record.database = name := by
  obtain ⟨hholds, d', hholdings, hexecute⟩ := h.run rfl hrun
  refine ⟨hholds, ?_⟩
  have hd' := hd.of_holdings hholdings
  rw [← nameOf?_of_holdings hholdings] at hname
  simp only [execute] at hexecute
  split at hexecute
  · cases hexecute
  rename_i db hreach
  split at hexecute
  · rename_i r hget
    obtain rfl := Except.ok.inj hexecute
    have hdb := database?_of_reach hreach
    rw [nameOf?, hdb, Option.map_some] at hname
    rw [← Option.some.inj hname]
    exact hd'.owned db (database?_mem hdb) r (Slots.mem_values_of_get? hget)
  · cases hexecute

/-! ## A reader -/

namespace Reader

/-- The records that the reader handed out are those of databases behind it, and of the one that it
is in. -/
structure Gathers (d : Device) (reader : Reader) (kept : List Record) : Prop where
  names : reader.databases.Nodup
  behind : ∀ r ∈ kept, r.database ∉ reader.databases
  cursor : ∀ c ∈ reader.cursor, d.nameOf? c.id = some c.database ∧ c.database ∉ reader.databases ∧
    ∃ done now, kept = done ++ now ∧ (∀ r ∈ done, r.database ≠ c.database) ∧
      ∀ r ∈ now, r.database = c.database
  grouped : Grouped kept

variable {reader reader' : Reader} {kept : List Record} {answer : Option Record}

theorem gathers_ofNames {names : List String} (d : Device) (h : names.Nodup) :
    Gathers d (ofNames names) [] :=
  ⟨h, List.forall_mem_nil _, nofun, trivial⟩

/-- One more record of the database that the reader is in. -/
theorem gathers_read (reader : Reader) (pending : List Slot) {database : String}
    {databaseId : DatabaseId} {record : Record} {done now : List Record}
    (hnames : reader.databases.Nodup)
    (hcursor : d.nameOf? databaseId = some database) (hahead : database ∉ reader.databases)
    (hdone : Grouped done) (hbehind : ∀ r ∈ done, r.database ∉ reader.databases)
    (hothers : ∀ r ∈ done, r.database ≠ database) (hnow : ∀ r ∈ now, r.database = database)
    (hrecord : record.database = database) :
    Gathers d { reader with cursor := some ⟨database, databaseId, pending⟩ }
      ((done ++ now) ++ [record]) := by
  have hnow' : ∀ r ∈ now ++ [record], r.database = database := fun r hr =>
    (List.mem_append.mp hr).elim (hnow r) fun h => List.mem_singleton.mp h ▸ hrecord
  rw [List.append_assoc]
  refine ⟨hnames, fun r hr => ?_, ?_, hdone.concat hnow' hothers⟩
  · rcases List.mem_append.mp hr with hr | hr
    · exact hbehind r hr
    · exact hnow' r hr ▸ hahead
  · rintro _ ⟨⟩
    exact ⟨hcursor, hahead, done, _, rfl, hothers, hnow'⟩

/-- The reader goes on to the first database that holds a record. -/
theorem gathers_advance (hd : d.Proper) {names : List String} (hnames : names.Nodup)
    (hkept : Grouped kept) (hbehind : ∀ r ∈ kept, r.database ∉ names) (hholds : bus.Holds id d)
    (h : advance (sessionsWith refusals id) names bus = (.ok answer, reader, bus')) :
    bus'.Holds id d ∧ Gathers d reader (kept ++ answer.toList) := by
  induction names generalizing bus with
  | nil =>
    cases h
    exact ⟨hholds, List.nodup_nil, fun _ _ => List.not_mem_nil, nofun, by simpa using hkept⟩
  | cons name names ih =>
    obtain ⟨hname, hrest⟩ := List.nodup_cons.mp hnames
    have hothers : ∀ r ∈ kept, r.database ≠ name ∧ r.database ∉ names := fun r hr =>
      not_or.mp fun h => hbehind r hr (List.mem_cons.mpr h)
    unfold advance at h
    split at h
    · cases h
    rename_i hid
    obtain ⟨hlooked, hnamed⟩ := hholds.databaseId hd hid
    split at h
    · cases h
    rename_i htable
    obtain ⟨hfetched, -⟩ := hlooked.run rfl htable
    split at h
    · exact ih hrest (fun r hr => (hothers r hr).2) hfetched h
    rename_i slot pending hslots
    dsimp only at h
    split at h
    · cases h
    · rename_i hread
      obtain ⟨hheld, hbelongs⟩ := hfetched.readRecord hd hnamed hread
      cases h
      refine ⟨hheld, ?_⟩
      have hnone : ∀ r ∈ ([] : List Record), r.database = name := List.forall_mem_nil _
      have hgathers := gathers_read (ofNames names) pending hrest hnamed hname hkept
        (fun r hr => (hothers r hr).2) (fun r hr => (hothers r hr).1) hnone hbelongs
      rw [List.append_nil] at hgathers
      exact hgathers

/-- What a reader hands out follows what it has handed out. -/
theorem Gathers.next (h : Gathers d reader kept) (hd : d.Proper) (hholds : bus.Holds id d)
    (hnext : reader.next (sessionsWith refusals id) bus = (.ok answer, reader', bus')) :
    bus'.Holds id d ∧ Gathers d reader' (kept ++ answer.toList) := by
  unfold Reader.next at hnext
  split at hnext
  · cases hnext
    exact ⟨hholds, by simpa using h⟩
  split at hnext
  · rename_i database databaseId slot pending hcursor
    obtain ⟨hnamed, hahead, done, now, rfl, hothers, hnow⟩ := h.cursor _ hcursor
    dsimp only at hnext
    split at hnext
    · cases hnext
    · rename_i hread
      obtain ⟨hheld, hbelongs⟩ := hholds.readRecord hd hnamed hread
      cases hnext
      exact ⟨hheld, gathers_read reader pending h.names hnamed hahead
        (h.grouped.sublist (List.sublist_append_left _ _))
        (fun r hr => h.behind r (List.mem_append_left _ hr)) hothers hnow hbelongs⟩
  · exact gathers_advance hd h.names h.grouped h.behind hholds hnext

end Reader

end Palmtop.Device
