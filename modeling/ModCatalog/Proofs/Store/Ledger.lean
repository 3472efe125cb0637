import ModCatalog.Proofs.Store.Frames

/-!
# Where the entries of a store come from

A ledger notes what was done to a store: which links were linked and which files noted, in order,
and which contents and coordinates were involved.  It explains the store if the latest link of a
project says which file its record shows, if the latest link with a file says whose file it is, and
if nobody else has rows or coordinates.
-/

namespace ModCatalog

/-- What was done to a store. -/
structure Ledger where
  /-- The links that were linked, in order. -/
  links : List PlatformLink
  /-- The links whose files were noted, in order. -/
  files : List PlatformLink
  /-- The contents whose rows were written. -/
  hashes : List String
  /-- The coordinates that were stated. -/
  names : List String
  /-- The coordinates that were made to lead to a mod. -/
  led : List String

/-- The last of some links that passes a test. -/
def lastLink? (test : PlatformLink → Bool) (links : List PlatformLink) : Option PlatformLink :=
  links.reverse.find? test

def lastOf? (listing : Listing) : List PlatformLink → Option PlatformLink :=
  lastLink? fun link => link.listing = listing

def lastWith? (file : FileKey) : List PlatformLink → Option PlatformLink :=
  lastLink? fun link => link.file = file

theorem lastLink?_concat (test : PlatformLink → Bool) (links : List PlatformLink)
    (link : PlatformLink) :
    lastLink? test (links ++ [link]) = if test link then some link else lastLink? test links := by
  unfold lastLink?
  rw [List.reverse_concat, List.find?_cons]
  split <;> simp_all

theorem mem_of_lastLink? {test : PlatformLink → Bool} {links : List PlatformLink}
    {link : PlatformLink} (h : lastLink? test links = some link) : link ∈ links :=
  List.mem_reverse.mp (List.mem_of_find?_eq_some h)

theorem lastLink?_append_self (test : PlatformLink → Bool) (links : List PlatformLink) :
    lastLink? test (links ++ links) = lastLink? test links := by
  unfold lastLink?
  rw [List.reverse_append, List.find?_append, Option.or_self]

/-- A store with nothing in it but what a ledger notes. -/
structure Ledger.Explains (ledger : Ledger) (store : Store) : Prop where
  links {id : Nat} {record : ModRecord} {link : PlatformLink} : store.mod? id = some record →
    link ∈ record.links → lastOf? link.listing ledger.links = some link
  listed {link : PlatformLink} : link ∈ ledger.files → (store.listings.get? link.listing).isSome
  seenFiles (file : FileKey) : store.seenFiles.get? file =
    (lastWith? file ledger.files).bind fun link => store.listings.get? link.listing
  rows {id : Nat} : (store.rows.get? id).isSome →
    ∃ hash ∈ ledger.hashes, store.hashes.get? hash = some id
  noted {id : Nat} {record : ModRecord} {coordinate : String} : store.mod? id = some record →
    record.coordinate = some coordinate → (store.coordinates.get? coordinate).isSome
  coordinates {coordinate : String} : (store.coordinates.get? coordinate).isSome →
    coordinate ∈ ledger.names
  led {coordinate : String} : coordinate ∈ ledger.led →
    ∃ id, store.findByCoordinate coordinate = .ok (some id)
  listingKeys {link : PlatformLink} : link ∈ ledger.links →
    Store.checkWrite link.listing.key 0 = .ok ()
  fileKeys {link : PlatformLink} : link ∈ ledger.files →
    Store.checkWrite link.file.key Store.idLength = .ok ()

namespace Ledger

variable {ledger : Ledger} {store after : Store} {link : PlatformLink} {id : Nat}

theorem Explains.findByCoordinate_of_isSome {coordinate : String} {owner : Nat}
    (hbefore : store.findByCoordinate coordinate = .ok (some owner))
    (hleads : (after.coordinates.get? coordinate).isSome) :
    ∃ id, after.findByCoordinate coordinate = .ok (some id) := by
  obtain ⟨hkey, _⟩ := Store.findByCoordinate_eq_some.mp hbefore
  obtain ⟨id, hid⟩ := Option.isSome_iff_exists.mp hleads
  exact ⟨id, Store.findByCoordinate_eq_some.mpr ⟨hkey, hid⟩⟩

theorem Explains.isSome_of_led (hexplains : ledger.Explains store) {coordinate : String}
    (hled : coordinate ∈ ledger.led) : (store.coordinates.get? coordinate).isSome := by
  obtain ⟨id, hfound⟩ := hexplains.led hled
  rw [(Store.findByCoordinate_eq_some.mp hfound).2]
  rfl

/-! ## Linking -/

theorem lastOf?_concat_self (links : List PlatformLink) (link : PlatformLink) :
    lastOf? link.listing (links ++ [link]) = some link := by
  unfold lastOf?
  rw [lastLink?_concat, if_pos (by simp)]

theorem lastOf?_concat_of_ne {links : List PlatformLink} {link other : PlatformLink}
    (hne : other.listing ≠ link.listing) :
    lastOf? other.listing (links ++ [link]) = lastOf? other.listing links := by
  unfold lastOf?
  rw [lastLink?_concat, if_neg (by simpa using hne.symm)]

/-- A link that is put on one record: its project leads there, and the links of all records were
those of records before. -/
theorem Explains.links_linked (hexplains : ledger.Explains store) (hafter : after.Exact)
    (hleads : after.listings.get? link.listing = some id) {base : ModRecord}
    (hrecord : after.mod? id = some (base.withLink link))
    (hbase : ∀ other ∈ base.links, other.listing ≠ link.listing →
      ∃ source found, store.mod? source = some found ∧ other ∈ found.links)
    (hothers : ∀ {other record}, other ≠ id → after.mod? other = some record →
      store.mod? other = some record)
    {other : Nat} {record : ModRecord} {held : PlatformLink}
    (hfound : after.mod? other = some record) (hheld : held ∈ record.links) :
    lastOf? held.listing (ledger.links ++ [link]) = some held := by
  by_cases hother : other = id
  · subst hother
    cases hrecord.symm.trans hfound
    rcases ModRecord.mem_links_withLink hheld with rfl | ⟨hmem, hne⟩
    · exact lastOf?_concat_self ledger.links held
    · obtain ⟨source, found, hsource, hheld⟩ := hbase held hmem hne
      rw [lastOf?_concat_of_ne hne]
      exact hexplains.links hsource hheld
  · have hne : held.listing ≠ link.listing := by
      intro heq
      have howner := hafter.listing_owner hfound (List.mem_map_of_mem hheld)
      rw [heq, hleads] at howner
      exact hother (Option.some.inj howner).symm
    rw [lastOf?_concat_of_ne hne]
    exact hexplains.links (hothers hother hfound) hheld

theorem Explains.attach (hexplains : ledger.Explains store) (hstore : store.Exact)
    {absorbed : Option Nat}
    (h : (Transaction.attachPlatform id link).run store = .ok (absorbed, after)) :
    Explains { ledger with links := ledger.links ++ [link] } after := by
  obtain ⟨hafter, hleads, _, hhashes, hlistings⟩ := hstore.attachPlatform_spec h
  obtain ⟨hothers, hseen, hrows, hcame, hstay⟩ := hstore.attachPlatform_frame h
  obtain ⟨hkey, base, hrecord, hbase, hcoordinate, _⟩ :=
    Transaction.attachPlatform_record hstore.keyed h
  have hnoted : ∀ {source found coordinate}, store.mod? source = some found →
      found.coordinate = some coordinate → (after.coordinates.get? coordinate).isSome :=
    fun hsource hown => hstay (hexplains.noted hsource hown)
  constructor
  case links =>
      exact hexplains.links_linked hafter hleads hrecord (fun other hmem _ => hbase other hmem)
        hothers
  case listed =>
      intro other hmem
      obtain ⟨owner, howner⟩ := Option.isSome_iff_exists.mp (hexplains.listed hmem)
      rw [hlistings howner]
      rfl
  case seenFiles =>
      intro file
      rw [hseen, hexplains.seenFiles]
      cases hlast : lastWith? file ledger.files with
      | none => rfl
      | some last =>
          obtain ⟨owner, howner⟩ :=
            Option.isSome_iff_exists.mp (hexplains.listed (mem_of_lastLink? hlast))
          rw [Option.bind_some, Option.bind_some, howner, hlistings howner, Option.map_some]
  case rows =>
      intro other hother
      obtain ⟨hbefore, hne⟩ := hrows hother
      obtain ⟨hash, hmem, howner⟩ := hexplains.rows hbefore
      exact ⟨hash, hmem, by rw [hhashes howner, if_neg hne]⟩
  case noted =>
      intro other record coordinate hfound hown
      by_cases hother : other = id
      · subst hother
        cases hrecord.symm.trans hfound
        rw [ModRecord.withLink_coordinate] at hown
        obtain ⟨source, found, hsource, hown⟩ := hcoordinate coordinate hown
        exact hnoted hsource hown
      · exact hnoted (hothers hother hfound) hown
  case coordinates =>
      intro coordinate hcoord
      rcases hcame hcoord with hbefore | ⟨source, found, hsource, hown⟩
      · exact hexplains.coordinates hbefore
      · exact hexplains.coordinates (hexplains.noted hsource hown)
  case led =>
      intro coordinate hled
      obtain ⟨owner, howner⟩ := hexplains.led hled
      exact findByCoordinate_of_isSome howner (hstay (hexplains.isSome_of_led hled))
  case listingKeys =>
      intro other hmem
      rcases List.mem_append.mp hmem with hbefore | hnew
      · exact hexplains.listingKeys hbefore
      · rwa [List.mem_singleton.mp hnew]
  case fileKeys => exact hexplains.fileKeys

/-- A link under the project that its mod is found or created for. -/
theorem Explains.linkListing (hexplains : ledger.Explains store) (hstore : store.Exact)
    {new : NewMod} {record : ModRecord} {created : Bool} {middle : Store} {value : PUnit}
    (hnames : ∀ coordinate ∈ new.coordinate, coordinate ∈ ledger.names)
    (hfound : (Transaction.findOrCreate (.listing link.listing) new).run store =
      .ok ((record, created), middle))
    (h : (Transaction.linkPlatform record.id link).run middle = .ok (value, after)) :
    Explains { ledger with links := ledger.links ++ [link] } after := by
  have hframe := hstore.foundUnder hfound
  obtain ⟨held, hheld, hafter⟩ := Transaction.linkPlatform_spec h
  cases hframe.found.symm.trans hheld
  have hleads : middle.listings.get? link.listing = some record.id := hframe.leads rfl
  have hexact : after.Exact := by
    rw [hafter]
    refine (hframe.middle_exact.withLink hframe.found ?_).1
    exact fun owner howner => Option.some.inj (howner.symm.trans hleads)
  have hanswers : ∀ listing, after.listings.get? listing =
      if listing = link.listing then some record.id else middle.listings.get? listing := by
    intro listing
    rw [hafter]
    exact Table.get?_put _ _ _ _
  have hmods : ∀ other, after.mod? other =
      if other = record.id then some (record.withLink link) else middle.mod? other := by
    intro other
    rw [hafter]
    exact Table.get?_put _ _ _ _
  have hothers : ∀ {other found}, other ≠ record.id → after.mod? other = some found →
      store.mod? other = some found := by
    intro other found hother hmod
    rw [hmods, if_neg hother] at hmod
    exact hframe.others hother hmod
  have hcoordinates : after.coordinates = middle.coordinates := by rw [hafter]
  have hkept : ∀ {listing owner}, store.listings.get? listing = some owner →
      after.listings.get? listing = some owner := by
    intro listing owner howner
    rw [hanswers, hframe.keeps.listings howner]
    split
    · next heq => rw [← hleads, ← heq, hframe.keeps.listings howner]
    · rfl
  constructor
  case links =>
      have hleads : after.listings.get? link.listing = some record.id := by
        rw [hanswers, if_pos rfl]
      have hlinked : after.mod? record.id = some (record.withLink link) := by
        rw [hmods, if_pos rfl]
      have hbase : ∀ other ∈ record.links, other.listing ≠ link.listing →
          ∃ source found, store.mod? source = some found ∧ other ∈ found.links := by
        intro other hmem hne
        rcases hframe.links hmem with hkey | hfound
        · exact absurd (LookupKey.listing.inj hkey).symm hne
        · exact ⟨record.id, record, hfound, hmem⟩
      intro _ _ _ hfound hheld
      exact hexplains.links_linked hexact hleads hlinked hbase hothers hfound hheld
  case listed =>
      intro other hmem
      obtain ⟨owner, howner⟩ := Option.isSome_iff_exists.mp (hexplains.listed hmem)
      rw [hkept howner]
      rfl
  case seenFiles =>
      intro file
      have hseen : after.seenFiles = store.seenFiles := by rw [hafter, ← hframe.seenFiles]
      rw [hseen, hexplains.seenFiles]
      cases hlast : lastWith? file ledger.files with
      | none => rfl
      | some last =>
          obtain ⟨owner, howner⟩ :=
            Option.isSome_iff_exists.mp (hexplains.listed (mem_of_lastLink? hlast))
          rw [Option.bind_some, Option.bind_some, howner, hkept howner]
  case rows =>
      intro other hrows
      have hsame : after.rows = store.rows := by rw [hafter, ← hframe.rows]
      have hhashes : after.hashes = store.hashes := by rw [hafter, ← hframe.hashes]
      rw [hsame] at hrows
      rw [hhashes]
      exact hexplains.rows hrows
  case noted =>
      intro other found coordinate hmod hown
      rw [hcoordinates]
      by_cases hother : other = record.id
      · rw [hmods, if_pos hother] at hmod
        cases hmod
        rw [ModRecord.withLink_coordinate] at hown
        rcases hframe.noted hown with hnew | hold
        · exact hnew
        · exact hframe.stay (hexplains.noted hold hown)
      · exact hframe.stay (hexplains.noted (hothers hother hmod) hown)
  case coordinates =>
      intro coordinate hcoordinate
      rw [hcoordinates] at hcoordinate
      rcases hframe.came hcoordinate with hold | hnew | hkey
      · exact hexplains.coordinates hold
      · exact hnames coordinate hnew
      · cases hkey
  case led =>
      intro coordinate hled
      obtain ⟨owner, howner⟩ := hexplains.led hled
      refine findByCoordinate_of_isSome howner ?_
      rw [hcoordinates]
      exact hframe.stay (hexplains.isSome_of_led hled)
  case listingKeys =>
      intro other hmem
      rcases List.mem_append.mp hmem with hbefore | hnew
      · exact hexplains.listingKeys hbefore
      · rw [List.mem_singleton.mp hnew]
        exact Store.checkWrite_of_linkPlatform h
  case fileKeys => exact hexplains.fileKeys

/-! ## Coordinates -/

/-- One more coordinate leads to a mod; records may have new coordinates, but no new links. -/
theorem Explains.lead (hexplains : ledger.Explains store) {coordinate : String}
    (hlinks : ∀ {id record link}, after.mod? id = some record → link ∈ record.links →
      ∃ source found, store.mod? source = some found ∧ link ∈ found.links)
    (hlistings : after.listings = store.listings) (hseen : after.seenFiles = store.seenFiles)
    (hrows : after.rows = store.rows) (hhashes : after.hashes = store.hashes)
    (hnoted : ∀ {id record own}, after.mod? id = some record → record.coordinate = some own →
      (after.coordinates.get? own).isSome)
    (hcame : ∀ {own}, (after.coordinates.get? own).isSome → own ∈ ledger.names)
    (hstay : ∀ {own}, (store.coordinates.get? own).isSome → (after.coordinates.get? own).isSome)
    (hled : ∃ id, after.findByCoordinate coordinate = .ok (some id)) :
    Explains { ledger with led := ledger.led ++ [coordinate] } after := by
  constructor
  case links =>
      intro id record link hrecord hlink
      obtain ⟨source, found, hsource, hmem⟩ := hlinks hrecord hlink
      exact hexplains.links hsource hmem
  case listed =>
      rw [hlistings]
      exact hexplains.listed
  case seenFiles =>
      rw [hlistings, hseen]
      exact hexplains.seenFiles
  case rows =>
      rw [hrows, hhashes]
      exact hexplains.rows
  case noted => exact hnoted
  case coordinates => exact hcame
  case led =>
      intro own hmem
      rcases List.mem_append.mp hmem with hbefore | hnew
      · obtain ⟨owner, howner⟩ := hexplains.led hbefore
        exact findByCoordinate_of_isSome howner (hstay (hexplains.isSome_of_led hbefore))
      · rwa [List.mem_singleton.mp hnew]
  case listingKeys => exact hexplains.listingKeys
  case fileKeys => exact hexplains.fileKeys

theorem Explains.findOrCreate (hexplains : ledger.Explains store) (hstore : store.Exact)
    {new : NewMod} {coordinate : String} {record : ModRecord} {created : Bool}
    (hname : coordinate ∈ ledger.names) (hnames : ∀ own ∈ new.coordinate, own ∈ ledger.names)
    (h : (Transaction.findOrCreate (.coordinate coordinate) new).run store =
      .ok ((record, created), after)) :
    Explains { ledger with led := ledger.led ++ [coordinate] } after := by
  have hframe := hstore.foundUnder h
  have hlistings : after.listings = store.listings := by
    rcases Transaction.findOrCreate_spec h with ⟨_, _, _, _, rfl⟩ | ⟨_, _, _, rfl⟩ <;> rfl
  refine hexplains.lead ?_ hlistings hframe.seenFiles hframe.rows hframe.hashes ?_ ?_
    hframe.stay (hframe.led rfl)
  · intro id found link hfound hlink
    by_cases hid : id = record.id
    · subst hid
      cases hframe.found.symm.trans hfound
      rcases hframe.links hlink with hkey | hold
      · cases hkey
      · exact ⟨record.id, record, hold, hlink⟩
    · exact ⟨id, found, hframe.others hid hfound, hlink⟩
  · intro id found own hfound hown
    by_cases hid : id = record.id
    · subst hid
      cases hframe.found.symm.trans hfound
      rcases hframe.noted hown with hnew | hold
      · exact hnew
      · exact hframe.stay (hexplains.noted hold hown)
    · exact hframe.stay (hexplains.noted (hframe.others hid hfound) hown)
  · intro own hown
    rcases hframe.came hown with hold | hnew | hkey
    · exact hexplains.coordinates hold
    · exact hnames own hnew
    · rwa [← LookupKey.coordinate.inj hkey]

theorem Explains.linkCoordinate (hexplains : ledger.Explains store) (hstore : store.Exact)
    {coordinate : String} {value : PUnit} (hname : coordinate ∈ ledger.names)
    (hread : Store.checkRead coordinate = .ok ())
    (h : (Transaction.linkCoordinate id coordinate).run store = .ok (value, after)) :
    Explains { ledger with led := ledger.led ++ [coordinate] } after := by
  obtain ⟨record, hrecord, hafter⟩ := Transaction.linkCoordinate_spec h
  have hid : record.id = id := hstore.keyed hrecord
  have hmods : ∀ other, after.mod? other =
      if other = id then some (record.withCoordinate coordinate) else store.mod? other := by
    intro other
    rw [hafter, hid]
    exact Table.get?_put _ _ _ _
  have hcoordinates : ∀ own, after.coordinates.get? own =
      if own = coordinate then some id else store.coordinates.get? own := by
    intro own
    rw [hafter, hid]
    exact Table.get?_put _ _ _ _
  have hstay : ∀ {own}, (store.coordinates.get? own).isSome →
      (after.coordinates.get? own).isSome := by
    intro own hown
    rw [hcoordinates]
    split
    · rfl
    · exact hown
  refine hexplains.lead ?_ (by rw [hafter]) (by rw [hafter]) (by rw [hafter]) (by rw [hafter])
    ?_ ?_ hstay ?_
  · intro other found link hfound hlink
    rw [hmods] at hfound
    split at hfound
    · cases hfound
      exact ⟨id, record, hrecord, hlink⟩
    · exact ⟨other, found, hfound, hlink⟩
  · intro other found own hfound hown
    rw [hmods] at hfound
    split at hfound
    · cases hfound
      rcases Option.or_eq_some_iff.mp hown with hold | ⟨_, hnew⟩
      · exact hstay (hexplains.noted hrecord hold)
      · rw [hcoordinates, if_pos (Option.some.inj hnew).symm]
        rfl
    · exact hstay (hexplains.noted hfound hown)
  · intro own hown
    rw [hcoordinates] at hown
    split at hown
    · next heq => rwa [heq]
    · exact hexplains.coordinates hown
  · refine ⟨id, Store.findByCoordinate_eq_some.mpr ⟨hread, ?_⟩⟩
    rw [hcoordinates, if_pos rfl]

/-! ## Rows and files -/

theorem Explains.track (hexplains : ledger.Explains store) (hstore : store.Exact)
    {batch : TrackBatch} {hash : String} {value : PUnit} (hknown : batch.knownHash = some hash)
    (hfree : store.hashes.get? hash = none)
    (h : (Transaction.track id batch).run store = .ok (value, after)) :
    Explains { ledger with hashes := ledger.hashes ++ [hash] } after := by
  obtain ⟨record, hrecord, _, hafter⟩ := Transaction.track_spec h
  have hid : record.id = id := hstore.keyed hrecord
  have hmods : ∀ other, after.mod? other =
      if other = id then some (Transaction.described record batch) else store.mod? other := by
    intro other
    rw [hafter, hid]
    exact Table.get?_put _ _ _ _
  have hhashes : ∀ other, after.hashes.get? other =
      if other = hash then some id else store.hashes.get? other := by
    intro other
    have hput := Table.get?_put store.hashes hash other id
    rw [hafter, hknown]
    exact hput
  have hdescribed : (Transaction.described record batch).links = record.links ∧
      (Transaction.described record batch).coordinate = record.coordinate := by
    unfold Transaction.described
    split <;> exact ⟨rfl, rfl⟩
  have hlistings : after.listings = store.listings := by rw [hafter]; rfl
  have hcoordinates : after.coordinates = store.coordinates := by rw [hafter]; rfl
  constructor
  case links =>
      intro other found link hfound hlink
      rw [hmods] at hfound
      split at hfound
      · cases hfound
        rw [hdescribed.1] at hlink
        exact hexplains.links hrecord hlink
      · exact hexplains.links hfound hlink
  case listed =>
      rw [hlistings]
      exact hexplains.listed
  case seenFiles =>
      have hseen : after.seenFiles = store.seenFiles := by rw [hafter]; rfl
      rw [hlistings, hseen]
      exact hexplains.seenFiles
  case rows =>
      intro other hrows
      by_cases hother : other = id
      · refine ⟨hash, List.mem_append_right _ List.mem_cons_self, ?_⟩
        rw [hhashes, if_pos rfl, hother]
      · have hbefore : (store.rows.get? other).isSome := by
          have hput := Store.get?_rows_putRows store id other
            ((if batch.deletesCurrent then Rows.empty else store.rowsOf id).append batch.rows)
          rw [if_neg hother] at hput
          rw [hafter] at hrows
          rw [← hput]
          exact hrows
        obtain ⟨known, hmem, howner⟩ := hexplains.rows hbefore
        refine ⟨known, List.mem_append_left _ hmem, ?_⟩
        have hne : known ≠ hash := by
          intro heq
          rw [heq, hfree] at howner
          cases howner
        rw [hhashes, if_neg hne, howner]
  case noted =>
      intro other found coordinate hfound hown
      rw [hcoordinates]
      rw [hmods] at hfound
      split at hfound
      · cases hfound
        rw [hdescribed.2] at hown
        exact hexplains.noted hrecord hown
      · exact hexplains.noted hfound hown
  case coordinates =>
      rw [hcoordinates]
      exact hexplains.coordinates
  case led =>
      intro coordinate hled
      obtain ⟨owner, howner⟩ := hexplains.led hled
      refine findByCoordinate_of_isSome howner ?_
      rw [hcoordinates]
      exact hexplains.isSome_of_led hled
  case listingKeys => exact hexplains.listingKeys
  case fileKeys => exact hexplains.fileKeys

theorem Explains.markFileSeen (hexplains : ledger.Explains store) {value : PUnit}
    (hleads : store.listings.get? link.listing = some id)
    (h : (Transaction.markFileSeen link id).run store = .ok (value, after)) :
    Explains { ledger with files := ledger.files ++ [link] } after := by
  obtain ⟨hkey, rfl⟩ := Transaction.run_putFileOwner_eq_ok.mp h
  refine ⟨hexplains.links, ?_, ?_, hexplains.rows, hexplains.noted, hexplains.coordinates,
    hexplains.led, hexplains.listingKeys, ?_⟩
  · intro other hmem
    rcases List.mem_append.mp hmem with hbefore | hnew
    · exact hexplains.listed hbefore
    · rw [List.mem_singleton.mp hnew]
      change (store.listings.get? link.listing).isSome
      rw [hleads]
      rfl
  · intro file
    have hlast := lastLink?_concat (fun link => link.file = file) ledger.files link
    unfold lastWith?
    rw [hlast, Table.get?_put]
    by_cases hfile : file = link.file
    · rw [if_pos hfile, if_pos (by simp [hfile])]
      exact hleads.symm
    · rw [if_neg hfile, if_neg (by simpa using Ne.symm hfile)]
      exact hexplains.seenFiles file
  · intro other hmem
    rcases List.mem_append.mp hmem with hbefore | hnew
    · exact hexplains.fileKeys hbefore
    · rwa [List.mem_singleton.mp hnew]

theorem Explains.empty : Explains ⟨[], [], [], [], []⟩ Store.empty := by
  constructor <;> simp [Store.empty, Store.mod?, lastWith?, lastLink?]

theorem Explains.stating (hexplains : ledger.Explains store) (names : List String) :
    Explains { ledger with names := ledger.names ++ names } store :=
  { hexplains with
    coordinates := fun hleads => List.mem_append_left _ (hexplains.coordinates hleads) }

end Ledger

end ModCatalog
