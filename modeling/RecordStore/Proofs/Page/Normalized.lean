import RecordStore.Proofs.Page.SortDirective

/-!
# Requests held to a configuration

A configuration whose limits fit each other holds every request to a normal form, and holds a
request that is in normal form to itself. Whatever is set, what is built has limits that fit.
-/

namespace RecordStore

/-- Limits that fit each other: each one is at least 1, and the default page size is not above the
largest. -/
structure StoreConfig.LimitsFit (config : StoreConfig) : Prop where
  maxConnections_pos : 1 ≤ config.maxConnections.toNat
  default_pos : 1 ≤ config.pageLimitDefault.toInt
  default_le : config.pageLimitDefault.toInt ≤ config.pageLimitMax.toInt

/-- The limits of what is built fit each other, whatever was set. -/
theorem ConfigSettings.limitsFit_build (s : ConfigSettings) : s.build.LimitsFit := by
  obtain ⟨hpos, hle⟩ := s.limits_build
  refine ⟨?_, hpos, hle⟩
  change 1 ≤ (max s.maxConnections 1).toNat
  rw [UInt32.toNat_max]
  exact Nat.le_max_right _ _

namespace PageOptions

/-- A request in normal form under a configuration: its limit is between 1 and the largest page, its
page is at least 1, and its directives are in normal form. -/
structure IsNormal (n : PageOptions) (config : StoreConfig) : Prop where
  limit_pos : 1 ≤ n.limit.toInt
  limit_le : n.limit.toInt ≤ config.pageLimitMax.toInt
  page_pos : 1 ≤ n.page.toInt
  directives : ∀ directive ∈ n.orderBy, SortDirective.IsNormal directive

variable {config : StoreConfig}

/-- A request held to limits that fit is in normal form. -/
theorem isNormal_normalized (h : config.LimitsFit) (o : PageOptions) :
    (o.normalized config).IsNormal config := by
  have hlimit := o.toInt_limit_normalized config
  have hpos := h.default_pos
  have hle := h.default_le
  have hpage : (o.normalized config).page.toInt = max o.page.toInt 1 := by
    rw [normalized, toInt_max, Int64.toInt_one]
  refine ⟨?_, ?_, ?_, SortDirective.isNormal_of_mem_filterMap⟩
  · split at hlimit <;> omega
  · split at hlimit <;> omega
  · omega

/-- A request in normal form stays as it is. -/
theorem IsNormal.normalized_eq {n : PageOptions} (h : n.IsNormal config) :
    n.normalized config = n := by
  obtain ⟨hpos, hle, hpage_pos, hdirectives⟩ := h
  have hlimit : (n.normalized config).limit = n.limit := by
    rw [← Int64.toInt_inj, toInt_limit_normalized, if_neg (by omega)]
    omega
  have hpage : (n.normalized config).page = n.page := by
    rw [← Int64.toInt_inj, normalized, toInt_max, Int64.toInt_one]
    omega
  have horderBy : (n.normalized config).orderBy = n.orderBy := by
    calc n.orderBy.filterMap SortDirective.normalize?
        = n.orderBy.filterMap some := by
          apply List.filterMap_congr
          intro directive hdirective
          exact SortDirective.normalize?_eq_self_iff.2 (hdirectives directive hdirective)
      _ = n.orderBy := List.filterMap_some
  calc n.normalized config
      = { n with
          limit := (n.normalized config).limit
          page := (n.normalized config).page
          orderBy := (n.normalized config).orderBy } := rfl
    _ = n := by rw [hlimit, hpage, horderBy]

/-- Whatever is set and asked for, the limits that are built fit each other and hold the request to
a normal form, which holding it to them once more leaves as it is; what the request looks for stays,
and of its directives those that are read, in their order. -/
theorem normalized_build (s : ConfigSettings) (o : PageOptions) :
    s.build.LimitsFit ∧
    (o.normalized s.build).IsNormal s.build ∧
    (o.normalized s.build).q = o.q ∧
    (o.normalized s.build).orderBy = o.orderBy.filterMap SortDirective.normalize? ∧
    (o.normalized s.build).normalized s.build = o.normalized s.build := by
  have hfit := s.limitsFit_build
  have hnormal := isNormal_normalized hfit o
  exact ⟨hfit, hnormal, rfl, rfl, hnormal.normalized_eq⟩

/-- A request for more rows than a page may have, with four directives: the two that are read are
kept in normal form, and the two that name no direction or no column are left out. -/
theorem normalized_build_directives :
    let s : ConfigSettings := { databaseUrl := "", pageLimitMax := 50 }
    let o : PageOptions :=
      { q := "pen", limit := 500, page := -3,
        orderBy := ["price desc", "price upwards", "products.title", "1 asc"] }
    let n := o.normalized s.build
    s.build.LimitsFit ∧ n.IsNormal s.build ∧ n.q = "pen" ∧
      n.orderBy = ["price DESC", "products.title ASC"] ∧ n.normalized s.build = n ∧
      n.limit = 50 ∧ n.page = 1 := by
  intro s o n
  obtain ⟨hfit, hnormal, hq, horderBy, hfixed⟩ := normalized_build s o
  exact ⟨hfit, hnormal, hq, horderBy.trans (by decide +kernel), hfixed, by decide, by decide⟩

end PageOptions

end RecordStore
