import RecordStore.Proofs.Page.Window

/-!
# Pages tile the rows

The pages of one size follow each other without a gap and without an overlap. Offsets are held at
the largest 64-bit integer, and a page that is held there lies behind every row before that number,
so each of these rows stands in exactly one page, the one that division by the size gives.
-/

namespace RecordStore

namespace PageOptions

/-- The request for another page of the same size. -/
def atPage (o : PageOptions) (page : Int64) : PageOptions := { o with page }

/-- Whether a row, counted from 0, stands in the window of a request. The end of the window is an
exact integer, which may lie past the 64-bit ones. -/
def Shows (o : PageOptions) (row : Int) : Prop :=
  o.offset.toInt ≤ row ∧ row < o.offset.toInt + o.limit.toInt

/-- The pages of the size that a request asks for tile the rows. -/
structure TilesRows (o : PageOptions) : Prop where
  /-- A row stands in the page that division by the size gives, and in no other. -/
  shows_iff : ∀ row, 0 ≤ row → row < int64Max → ∀ page : Int64, 1 ≤ page.toInt →
    ((o.atPage page).Shows row ↔ page.toInt = row / o.limit.toInt + 1)
  /-- That page is a 64-bit integer. -/
  existsUnique : ∀ row, 0 ≤ row → row < int64Max →
    ∃! page : Int64, 1 ≤ page.toInt ∧ (o.atPage page).Shows row
  /-- No step on the way to an offset overflows: the pages before are counted exactly, and so are
  the rows of these pages up to the largest 64-bit integer. -/
  exact_steps : ∀ page : Int64, (max page 1 - 1).toInt = max page.toInt 1 - 1 ∧
    (o.atPage page).offset.toInt = min (o.limit.toInt * (max page.toInt 1 - 1)) int64Max
  offset_nonneg : ∀ page, 0 ≤ (o.atPage page).offset.toInt
  offset_mono : ∀ page page' : Int64, page.toInt ≤ page'.toInt →
    (o.atPage page).offset.toInt ≤ (o.atPage page').offset.toInt
  /-- A page below the first one has the window of the first one. -/
  below_first : ∀ page : Int64, page.toInt < 1 → (o.atPage page).offset = (o.atPage 1).offset
  /-- The window is the one that the request is served. -/
  served : ∀ page, (Query.servedWindow (o.atPage page)).limit = o.limit ∧
    (Query.servedWindow (o.atPage page)).offset = (o.atPage page).offset

variable {o : PageOptions}

/-- The rows before another page of the same size. -/
theorem toInt_offset_atPage (hlimit : 1 ≤ o.limit.toInt) (page : Int64) :
    (o.atPage page).offset.toInt = min (o.limit.toInt * (max page.toInt 1 - 1)) int64Max :=
  (o.atPage page).toInt_offset hlimit

/-- A row stands in a page exactly when division by the size gives that page. -/
theorem shows_atPage_iff (hlimit : 1 ≤ o.limit.toInt) {row : Int} (hrow : row < int64Max)
    {page : Int64} (hpage : 1 ≤ page.toInt) :
    (o.atPage page).Shows row ↔ page.toInt = row / o.limit.toInt + 1 := by
  have hbefore : max page.toInt 1 - 1 = page.toInt - 1 := by omega
  have hquotient : row / o.limit.toInt = page.toInt - 1 ↔
      o.limit.toInt * (page.toInt - 1) ≤ row ∧
        row < o.limit.toInt * (page.toInt - 1) + o.limit.toInt := by
    rw [Int.ediv_eq_iff_of_pos (by omega), Int.mul_comm]
  -- Since the row is below the bound, a page that starts at or before it is not held there.
  have hwindow : (o.atPage page).Shows row ↔
      o.limit.toInt * (page.toInt - 1) ≤ row ∧
        row < o.limit.toInt * (page.toInt - 1) + o.limit.toInt := by
    have hsize : (o.atPage page).limit = o.limit := rfl
    rw [Shows, hsize, toInt_offset_atPage hlimit, hbefore]
    omega
  rw [hwindow, ← hquotient]
  omega

/-- The page that division by the size gives is a 64-bit integer. -/
theorem exists_toInt_eq_ediv (hlimit : 1 ≤ o.limit.toInt) {row : Int} (hpos : 0 ≤ row)
    (hrow : row < int64Max) :
    ∃ page : Int64, 1 ≤ page.toInt ∧ page.toInt = row / o.limit.toInt + 1 := by
  have hnonneg : 0 ≤ row / o.limit.toInt := Int.ediv_nonneg hpos (by omega)
  have hle : row / o.limit.toInt ≤ row := Int.ediv_le_self _ hpos
  have hpage : (Int64.ofInt (row / o.limit.toInt + 1)).toInt = row / o.limit.toInt + 1 := by
    apply toInt_ofInt_of_mem
    simp only [int64Min, int64Max] at hrow ⊢
    omega
  refine ⟨_, ?_, hpage⟩
  omega

/-- The window that a request for at least one row is served is its own. -/
theorem servedWindow_atPage (hlimit : 1 ≤ o.limit.toInt) (page : Int64) :
    (Query.servedWindow (o.atPage page)).limit = o.limit ∧
      (Query.servedWindow (o.atPage page)).offset = (o.atPage page).offset := by
  have hsize : (Query.servedWindow (o.atPage page)).limit = o.limit := by
    change max o.limit 1 = o.limit
    rw [← Int64.toInt_inj, toInt_max, Int64.toInt_one]
    omega
  have hpage : (Query.servedWindow (o.atPage page)).page.toInt = max page.toInt 1 := by
    change (max page 1).toInt = _
    rw [toInt_max, Int64.toInt_one]
  refine ⟨hsize, ?_⟩
  rw [← Int64.toInt_inj, toInt_offset_atPage hlimit, toInt_offset _ (by rwa [hsize]), hsize, hpage]
  have hmax : max (max page.toInt 1) 1 = max page.toInt 1 := by omega
  rw [hmax]

/-- The pages of every size tile the rows: each row before the largest 64-bit integer stands in
exactly one of them. -/
theorem tilesRows (hlimit : 1 ≤ o.limit.toInt) : o.TilesRows where
  shows_iff := fun _ _ hrow _ hpage ↦ shows_atPage_iff hlimit hrow hpage
  existsUnique := by
    intro row hpos hrow
    obtain ⟨page, hpage, heq⟩ := exists_toInt_eq_ediv hlimit hpos hrow
    refine ⟨page, ⟨hpage, (shows_atPage_iff hlimit hrow hpage).2 heq⟩, ?_⟩
    rintro other ⟨hother, hshows⟩
    rw [shows_atPage_iff hlimit hrow hother] at hshows
    rw [← Int64.toInt_inj, heq, hshows]
  exact_steps := fun page ↦ ⟨toInt_pagesBefore page, toInt_offset_atPage hlimit page⟩
  offset_nonneg := by
    intro page
    have hproduct : 0 ≤ o.limit.toInt * (max page.toInt 1 - 1) :=
      Int.mul_nonneg (by omega) (by omega)
    rw [toInt_offset_atPage hlimit]
    exact Int.le_min.2 ⟨hproduct, by decide⟩
  offset_mono := by
    intro page page' hle
    have hproduct : o.limit.toInt * (max page.toInt 1 - 1) ≤
        o.limit.toInt * (max page'.toInt 1 - 1) :=
      Int.mul_le_mul_of_nonneg_left (by omega) (by omega)
    rw [toInt_offset_atPage hlimit, toInt_offset_atPage hlimit]
    omega
  below_first := by
    intro page hbelow
    have hfirst : max page.toInt 1 = max (1 : Int64).toInt 1 := by
      rw [Int64.toInt_one]
      omega
    rw [← Int64.toInt_inj, toInt_offset_atPage hlimit, toInt_offset_atPage hlimit, hfirst]
  served := servedWindow_atPage hlimit

/-- Pages of half the range, of which the third one is held at the bound. -/
theorem tilesRows_halves :
    let halves : PageOptions := { limit := 4611686018427387904 }
    1 ≤ halves.limit.toInt ∧ halves.TilesRows ∧
      (halves.atPage 2).Shows 9223372036854775806 ∧
      (halves.atPage 3).offset.toInt = int64Max := by
  intro halves
  have hlimit : 1 ≤ halves.limit.toInt := by decide
  have htiles := tilesRows hlimit
  refine ⟨hlimit, htiles, ?_, by decide⟩
  rw [htiles.shows_iff _ (by decide) (by decide) 2 (by decide)]
  decide

end PageOptions

end RecordStore
