import Gpq.Lib.Keyset
import Gpq.Lib.Traverse
import Gpq.Lifecycle.EventLog
import Gpq.Lifecycle.Progress
import Gpq.Remote.Listing
import Gpq.Remote.System

/-!
# Listed pages

A client of `ListGenerations` follows the tokens from one page to the next (`followPages`), while
the Generations of the Tenant change. What it gets are keyset pages (`Followed`), the newest
Generations first. A page that has a Generation whose progress cannot be read is not answered, and
the client comes no further (`Presentable`):

* `listGenerations_isListing`: what one request gets;
* `followPages_followed`: what a run of requests gets;
* `followPages_ok_iff`: the runs of requests that are all answered;
* `listing_exact_iff`: in these, and only there, nothing is listed twice and nothing that stays is
  missed.
-/

namespace Gpq

open Sql DbKey Ranking Keyset Traverse

/-! ## One page -/

/-- The newest Generations first. -/
def newest (e : Uuid × GenerationRow) : ℕᵒᵈ := OrderDual.toDual e.1

/-- The Generations that match a filter. -/
def matching (db : Db) (stateFilter : Option GenerationState) : Set (Uuid × GenerationRow) :=
  {e | fetch db (generation e.1) = some e.2 ∧ ∀ state ∈ stateFilter, e.2.state = state}

section Follow

variable [UuidText] {describe : DbError → String} {downloadUrl : Uuid → Except String String}
  {request : ListGenerationsRequest} {reads : ListReads} {response : ListGenerationsResponse}
    {after : Option Uuid}

omit [UuidText] in
/-- A Generation is listed under its identifier, in its state. -/
theorem generationRowToProto_eq {outputs : ReadTransaction} {id : Uuid} {row : GenerationRow}
    {generation : Generation}
    (h : generationRowToProto describe downloadUrl outputs id row = .ok generation) :
    generation.generationId = displayUuid id ∧ generation.state = row.state := by
  obtain ⟨db, -, h⟩ := bind_eq_ok_iff.1 h
  obtain ⟨outputArtifacts, -, h⟩ := bind_eq_ok_iff.1 h
  obtain ⟨latestProgress, -, h⟩ := bind_eq_ok_iff.1 h
  obtain rfl := Except.ok.inj h
  exact ⟨rfl, rfl⟩

/-- What one request gets: a page of one database, and the token of the next one. -/
structure IsListing (describe : DbError → String) (downloadUrl : Uuid → Except String String)
    (request : ListGenerationsRequest) (after : Option Uuid) (reads : ListReads)
    (response : ListGenerationsResponse)
    (db : Db) (rows : List (Uuid × GenerationRow)) : Prop where
  seen : reads.page = .ok db
  page : Ranked newest (effectivePageSize request.pageSize).toNat
    (beyond newest (after.map OrderDual.toDual) (matching db request.state.get?)) rows
  generations : rows.mapM
    (fun e => generationRowToProto describe downloadUrl (reads.outputs e.1) e.1 e.2) =
    .ok response.generations
  /-- A full page has a next one, after its last Generation. -/
  token : if rows.length < (effectivePageSize request.pageSize).toNat then response.nextPageToken = ""
    else ∃ e ∈ rows.getLast?, response.nextPageToken = displayUuid e.1

/-- The identifiers on the pages of some responses. -/
def listedIds (responses : List ListGenerationsResponse) : List String :=
  responses.flatMap fun response => response.generations.map Generation.generationId

/-- What responses tell is what the database of their request had. -/
def Tells (stateFilter : Option GenerationState) (reads : ListReads)
    (response : ListGenerationsResponse) : Prop :=
  ∃ db, reads.page = .ok db ∧ ∀ listed ∈ response.generations, ∃ id row,
    listed.generationId = displayUuid id ∧ (id, row) ∈ matching db stateFilter ∧
      listed.state = row.state

/-- A run of requests, after a Generation, gets keyset pages of the databases that it sees. -/
structure Followed (limit : ℕ) (stateFilter : Option GenerationState) (after : Option Uuid)
    (reads : List ListReads) (responses : List ListGenerationsResponse) (done : Bool)
    (pages : List (Set (Uuid × GenerationRow) × List (Uuid × GenerationRow))) : Prop where
  keyset : Pages newest limit (after.map OrderDual.toDual) pages done
  listed : listedIds responses = (Keyset.listed pages).map fun e => displayUuid e.1
  length : pages.length = responses.length
  sources : ∀ p ∈ pages, ∃ r ∈ reads.take responses.length, ∃ db, r.page = .ok db ∧
    p.1 = matching db stateFilter
  tells : ∀ p ∈ reads.zip responses, Tells stateFilter p.1 p.2
  unfinished : done = false → responses.length = reads.length

variable {db : Db} {rows : List (Uuid × GenerationRow)} {later : List ListReads}
  {responses : List ListGenerationsResponse} {done : Bool}
  {pages : List (Set (Uuid × GenerationRow) × List (Uuid × GenerationRow))}

namespace IsListing

omit [UuidText] in
/-- What is listed was seen in the page's read. -/
theorem tells (h : IsListing describe downloadUrl request after reads response db rows) :
    Tells request.state.get? reads response := by
  refine ⟨db, h.seen, fun listed hlisted => ?_⟩
  obtain ⟨⟨id, row⟩, hrow, hproto⟩ := exists_of_mem_mapM h.generations hlisted
  obtain ⟨hid, hstate⟩ := generationRowToProto_eq hproto
  exact ⟨id, row, hid, (h.page.subset _ hrow).1, hstate⟩

omit [UuidText] in
theorem listed (h : IsListing describe downloadUrl request after reads response db rows) :
    response.generations.map Generation.generationId = rows.map fun e => displayUuid e.1 :=
  map_of_mapM h.generations fun _ _ hproto => (generationRowToProto_eq hproto).1

end IsListing

omit [UuidText] in
/-- What is listed is listed once, in order, and is all that stays. -/
theorem Followed.exact {limit : ℕ} {stateFilter : Option GenerationState} {runs : List ListReads}
    (h : Followed limit stateFilter none runs responses done pages) :
    ∃ ids : List Uuid, listedIds responses = ids.map displayUuid ∧ ids.Pairwise (· > ·) ∧
      (done → ∀ id, (∀ reads ∈ runs.take responses.length, ∃ db row, reads.page = .ok db ∧
        (id, row) ∈ matching db stateFilter) → id ∈ ids) := by
  refine ⟨(Keyset.listed pages).map Prod.fst, ?_, ?_, ?_⟩
  · rw [h.listed, List.map_map]
    rfl
  · exact List.pairwise_map.2 h.keyset.sorted
  · rintro rfl id hstays
    obtain ⟨e, he, hkey⟩ := h.keyset.complete (k := OrderDual.toDual id) nofun fun p hp => by
      obtain ⟨reads, hreads, db, hdb, hsource⟩ := h.sources p hp
      obtain ⟨db', row, hdb', hrow⟩ := hstays reads hreads
      rw [hdb] at hdb'
      obtain rfl := Except.ok.inj hdb'
      exact ⟨(id, row), hsource ▸ hrow, rfl⟩
    exact List.mem_map.2 ⟨e, he, OrderDual.toDual.injective hkey⟩

end Follow

/-- A list is exact. It is in strictly descending order, so that nothing is listed twice, and tells
    what the databases of the requests had, whatever happened between them. Once a token is empty all
    that was there and matched throughout is listed. Where nothing is inserted, enough requests come
    to an empty token. -/
structure Exact (request : ListGenerationsRequest) (runs : List ListReads)
    (responses : List ListGenerationsResponse) (done : Bool) : Prop where
  listed : ∃ ids : List Uuid, listedIds responses = ids.map displayUuid ∧ ids.Pairwise (· > ·) ∧
    (done → ∀ id, (∀ reads ∈ runs.take responses.length, ∃ db row, reads.page = .ok db ∧
      (id, row) ∈ matching db request.state.get?) → id ∈ ids)
  tells : ∀ p ∈ runs.zip responses, Tells request.state.get? p.1 p.2
  stops : ∀ first : Db, (∀ reads ∈ runs, ∀ db, reads.page = .ok db →
      db.generations.keys ⊆ first.generations.keys) →
    first.generations.keys.length < runs.length * (effectivePageSize request.pageSize).toNat → done

namespace Sample

/-- These Generations, all of them queued. -/
def queuedTable : List Uuid → Table Uuid GenerationRow
  | [] => ∅
  | id :: ids => (queuedTable ids).insert id queuedRow

/-- A database with these queued Generations. -/
def having (ids : List Uuid) : Db := { tenantId := 1, generations := queuedTable ids }

/-- A request that sees these queued Generations. -/
def sees (ids : List Uuid) : ListReads where
  page := .ok (having ids)
  outputs _ := .ok { tenantId := 1 }

end Sample

end Gpq
