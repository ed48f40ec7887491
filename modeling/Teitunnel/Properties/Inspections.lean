import Teitunnel.Inspect.Routes
import Teitunnel.Lib.Fallible
import Teitunnel.Lib.Runs

/-!
# Inspecting never loses a route's own service

A route points at the service people configured, or at a tap, and then its row knows the service.
The row is only as good as what `applyOn` read: an inspection that starts on a tap's address, or
beside another one, remembers or forgets the wrong thing.  `Undisturbed` rules these out.
-/

namespace Teitunnel.Inspect

open Runs

namespace Machine

/-- What people configured for a route. -/
def originOf (configured : List (RouteKey × String)) (route : RouteKey) : Option String :=
  (configured.find? fun entry => entry.1 = route).map Prod.snd

/-- No inspection of the route is between its row and its change. -/
def NotApplying (m : Machine) (route : RouteKey) : Prop :=
  ∀ pending ∈ m.applying, pending.route ≠ route

/-- An inspection starts where the route points at its own service, and nothing else touches the
route until its change is made; a change that isn't applied leaves the route as it was. -/
def Undisturbed (k : RouteKey) (m : Machine) : Action → Prop
  | .applyOn _ route _ => route = k →
      (∀ origin, m.ingress k = some origin → origin ∉ m.urls) ∧ m.NotApplying k
  | .finishOn pending outcome changed =>
      pending.route = k → outcome ≠ .applied → changed = false
  | .applyOff _ route _ _ => route = k → m.NotApplying k
  | .revert _ route _ _ => route = k → m.NotApplying k
  | .crash _ _ => True

/-- The route's row is for a tap at `url`. -/
def HasRow (m : Machine) (k : RouteKey) (url : String) : Prop :=
  ∃ row, m.rows k = some row ∧ row.lensUrl = url

/-- What holds of a route and its row at every step. -/
structure Remembered (configured : List (RouteKey × String)) (k : RouteKey) (m : Machine) :
    Prop where
  same : m.configured = configured
  /-- No tap listens where a configured service does. -/
  apart : ∀ entry ∈ configured, entry.2 ∉ m.urls
  taps : ∀ tap ∈ m.taps, tap.url ∈ m.urls
  rows : ∀ row, m.rows k = some row → row.lensUrl ∈ m.urls ∧
    originOf configured k = some row.originalOrigin
  ingress : m.ingress k = originOf configured k ∨ ∃ url, m.ingress k = some url ∧ m.HasRow k url
  applying : ∀ pending ∈ m.applying, pending.route = k →
    m.ingress k = originOf configured k ∧ m.HasRow k pending.url
  once : (m.applying.filter fun pending => pending.route = k).length ≤ 1

variable {configured : List (RouteKey × String)} {k : RouteKey} {m m' : Machine}

namespace Remembered

/-- Where a route doesn't point at a tap, it points at its service. -/
lemma own_of_not_tap (h : Remembered configured k m)
    (hown : ∀ origin, m.ingress k = some origin → origin ∉ m.urls) :
    m.ingress k = originOf configured k := by
  rcases h.ingress with horigin | ⟨url, hingress, row, hrow, rfl⟩
  · exact horigin
  · exact absurd (h.rows row hrow).1 (hown _ hingress)

/-- Where a route doesn't point at the tap of its row, it points at its service. -/
lemma own_of_ne_row (h : Remembered configured k m)
    (hne : ∀ row, m.rows k = some row → m.ingress k ≠ some row.lensUrl) :
    m.ingress k = originOf configured k := by
  rcases h.ingress with horigin | ⟨url, hingress, row, hrow, rfl⟩
  · exact horigin
  · exact absurd hingress (hne row hrow)

/-! ## Steps -/

/-- A step that leaves the route, its row and its inspections alone. -/
lemma elsewhere (h : Remembered configured k m) (hsame : m'.configured = m.configured)
    (hurls : ∀ url ∈ m.urls, url ∈ m'.urls) (hapart : ∀ entry ∈ configured, entry.2 ∉ m'.urls)
    (htaps : ∀ tap ∈ m'.taps, tap.url ∈ m'.urls) (hingress : m'.ingress k = m.ingress k)
    (hrows : m'.rows k = m.rows k)
    (happlying : m'.applying.filter (fun pending => pending.route = k) =
      m.applying.filter (fun pending => pending.route = k)) : Remembered configured k m' := by
  have hrow : ∀ url, m.HasRow k url → m'.HasRow k url := by
    rintro url ⟨row, hsome, hurl⟩
    exact ⟨row, hrows.trans hsome, hurl⟩
  refine ⟨hsame.trans h.same, hapart, htaps, fun row hsome => ?_, ?_,
    fun pending hpending hroute => ?_, ?_⟩
  · obtain ⟨hurl, horigin⟩ := h.rows row (hrows.symm.trans hsome)
    exact ⟨hurls _ hurl, horigin⟩
  · rw [hingress]
    exact h.ingress.imp_right fun ⟨url, hurl, hhas⟩ => ⟨url, hurl, hrow url hhas⟩
  · have hmem : pending ∈ m'.applying.filter (fun pending => pending.route = k) :=
      List.mem_filter.mpr ⟨hpending, by simpa using hroute⟩
    rw [happlying] at hmem
    obtain ⟨horigin, hhas⟩ := h.applying pending (List.mem_filter.mp hmem).1 hroute
    exact ⟨hingress.trans horigin, hrow _ hhas⟩
  · rw [happlying]
    exact h.once

/-- Without an inspection on its way the row may stay, or go while the route points at its
service. -/
lemma settled (h : Remembered configured k m) (hsame : m'.configured = m.configured)
    (hurls : m'.urls = m.urls) (htaps : ∀ tap ∈ m'.taps, tap ∈ m.taps)
    (hrows : m'.rows k = m.rows k ∨ m'.rows k = none)
    (hingress : m'.ingress k = originOf configured k ∨
      ∃ url, m'.ingress k = some url ∧ m'.HasRow k url)
    (hnone : m'.NotApplying k) : Remembered configured k m' := by
  refine ⟨hsame.trans h.same, ?_, fun tap htap => ?_, fun row hsome => ?_, hingress, ?_, ?_⟩
  · rw [hurls]
    exact h.apart
  · rw [hurls]
    exact h.taps tap (htaps tap htap)
  · rw [hurls]
    rcases hrows with hrows | hrows
    · exact h.rows row (hrows.symm.trans hsome)
    · rw [hrows] at hsome
      cases hsome
  · intro pending hpending hroute
    exact absurd hroute (hnone pending hpending)
  · have hempty : m'.applying.filter (fun pending => pending.route = k) = [] :=
      List.filter_eq_nil_iff.mpr fun pending hpending => by simpa using hnone pending hpending
    rw [hempty]
    exact Nat.zero_le _

end Remembered

lemma prepareOn_ok {owner url url' origin : String} {route : RouteKey}
    (h : m.prepareOn owner route url = .ok (m', origin, url')) :
    m.ingress route = some origin ∧
      ((m' = m ∧ ∃ tap ∈ m.taps, tap.url = url') ∨
        (m' = { m with taps := m.taps ++ [⟨owner, route, url⟩], urls := m.urls ++ [url] } ∧
          url' = url)) := by
  simp only [prepareOn] at h
  split at h
  · cases h
  · rename_i origin' hingress
    split_ifs at h
    split at h
    · rename_i tap htap
      cases h
      exact ⟨hingress, .inl ⟨rfl, tap, List.mem_of_find?_eq_some htap, rfl⟩⟩
    · cases h
      exact ⟨hingress, .inr ⟨rfl, rfl⟩⟩

namespace Remembered

lemma applyOn (h : Remembered configured k m) {owner url : String} {route : RouteKey}
    (hurl : ∀ entry ∈ m.configured, entry.2 ≠ url)
    (hundisturbed : Undisturbed k m (.applyOn owner route url))
    (hok : m.applyOn owner route url = .ok m') : Remembered configured k m' := by
  simp only [Machine.applyOn, Except.bind_eq_ok] at hok
  obtain ⟨⟨m₁, origin, url'⟩, hprepare, hok⟩ := hok
  obtain ⟨hingress, hprepared⟩ := prepareOn_ok hprepare
  -- the tap is one of the machine's, old or new
  have h₁ : Remembered configured k m₁ ∧ m₁.ingress = m.ingress ∧ m₁.applying = m.applying ∧
      url' ∈ m₁.urls := by
    rcases hprepared with ⟨rfl, tap, htap, rfl⟩ | ⟨rfl, rfl⟩
    · exact ⟨h, rfl, rfl, h.taps tap htap⟩
    · refine ⟨h.elsewhere rfl ?_ ?_ ?_ rfl rfl rfl, rfl, rfl, by simp⟩
      · intro other hother
        exact List.mem_append_left _ hother
      · intro entry hentry hmem
        rcases List.mem_append.mp hmem with hmem | hmem
        · exact h.apart entry hentry hmem
        · exact hurl entry (h.same ▸ hentry) (List.mem_singleton.mp hmem)
      · intro tap htap
        rcases List.mem_append.mp htap with htap | htap
        · exact List.mem_append_left _ (h.taps tap htap)
        · rw [List.mem_singleton.mp htap]
          simp
  obtain ⟨h₁, hingress₁, happlying₁, hurl₁⟩ := h₁
  cases hok
  by_cases hroute : route = k
  · subst hroute
    obtain ⟨hown, hnone⟩ := hundisturbed rfl
    have horigin := h.own_of_not_tap hown
    have hempty : m.applying.filter (fun pending => pending.route = route) = [] :=
      List.filter_eq_nil_iff.mpr fun pending hpending => by simpa using hnone pending hpending
    refine ⟨h₁.same, h₁.apart, h₁.taps, fun row hrow => ?_, .inl ?_,
      fun pending hpending hpr => ?_, ?_⟩
    · simp only [record, Function.update_self] at hrow
      rw [← Option.some.inj hrow]
      exact ⟨hurl₁, horigin.symm.trans hingress⟩
    · show m₁.ingress route = _
      rw [hingress₁]
      exact horigin
    · rcases List.mem_append.mp hpending with hpending | hpending
      · have hmem : pending ∈ m₁.applying := hpending
        rw [happlying₁] at hmem
        exact absurd hpr (hnone pending hmem)
      · rw [List.mem_singleton.mp hpending]
        refine ⟨?_, ⟨origin, url', owner⟩, by simp [record], rfl⟩
        show m₁.ingress route = _
        rw [hingress₁]
        exact horigin
    · show ((m₁.applying ++ _).filter _).length ≤ 1
      rw [happlying₁, List.filter_append, hempty]
      simp
  · refine h₁.elsewhere rfl (fun _ hmem => hmem) h₁.apart h₁.taps rfl ?_ ?_
    · simp [record, Ne.symm hroute]
    · simp [record, hroute]

/-- There is one inspection of the route at most on its way. -/
lemma eq_of_applying (h : Remembered configured k m) {p q : Applying} (hp : p ∈ m.applying)
    (hq : q ∈ m.applying) (hpk : p.route = k) (hqk : q.route = k) : p = q := by
  have hmem : ∀ r ∈ m.applying, r.route = k →
      r ∈ m.applying.filter (fun pending => pending.route = k) := fun r hr hrk =>
    List.mem_filter.mpr ⟨hr, by simpa using hrk⟩
  have honce := h.once
  have hp' := hmem p hp hpk
  have hq' := hmem q hq hqk
  cases hlist : m.applying.filter (fun pending => pending.route = k) with
  | nil =>
      rw [hlist] at hp'
      cases hp'
  | cons a rest =>
      rw [hlist] at honce hp' hq'
      have hrest : rest = [] := List.eq_nil_of_length_eq_zero (by simpa using honce)
      rw [hrest] at hp' hq'
      rw [List.mem_singleton.mp hp', List.mem_singleton.mp hq']

/-- Once its change ends, no inspection of the route is on its way. -/
lemma notApplying_erase (h : Remembered configured k m) {pending : Applying}
    (hpending : pending ∈ m.applying) (hroute : pending.route = k) :
    ∀ p ∈ m.applying.erase pending, p.route ≠ k := by
  intro p hp hpk
  have hmem : pending ∈ m.applying.filter (fun pending => pending.route = k) :=
    List.mem_filter.mpr ⟨hpending, by simpa using hroute⟩
  have hlength : ((m.applying.erase pending).filter fun pending => pending.route = k).length = 0 := by
    have honce := h.once
    rw [← List.erase_filter, List.length_erase_of_mem hmem]
    omega
  have hp' : p ∈ (m.applying.erase pending).filter (fun pending => pending.route = k) :=
    List.mem_filter.mpr ⟨hp, by simpa using hpk⟩
  rw [List.eq_nil_of_length_eq_zero hlength] at hp'
  cases hp'

/-- The change of an inspection ends. -/
lemma finishOn (h : Remembered configured k m) {pending : Applying} {outcome : Outcome}
    {changed : Bool} (hpending : pending ∈ m.applying)
    (hundisturbed : Undisturbed k m (.finishOn pending outcome changed)) :
    Remembered configured k (m.finishOn pending outcome changed) := by
  by_cases hroute : pending.route = k
  · obtain ⟨horigin, row, hrow, hurl⟩ := h.applying pending hpending hroute
    have hnone := h.notApplying_erase hpending hroute
    simp only [Machine.finishOn]
    split_ifs with happlied
    · refine h.settled rfl rfl (fun _ htap => htap) (.inl rfl) (.inr ⟨pending.url, ?_, ?_⟩) hnone
      · simp [change, hroute]
      · exact ⟨row, hrow, hurl⟩
    · have hchanged := hundisturbed hroute happlied
      rw [hchanged]
      refine h.settled rfl rfl (fun _ htap => (List.mem_filter.mp htap).1) (.inr ?_) (.inl horigin)
        hnone
      simp [forget, stopTap, hroute]
  · have hfilter : (m.applying.erase pending).filter (fun pending => pending.route = k) =
        m.applying.filter fun pending => pending.route = k := by
      rw [← List.erase_filter, List.erase_of_not_mem]
      simp [hroute]
    have hne : k ≠ pending.route := Ne.symm hroute
    simp only [Machine.finishOn]
    split_ifs with happlied
    · exact h.elsewhere rfl (fun _ hmem => hmem) h.apart h.taps (change_ingress_of_ne _ _ _ _ hne)
        rfl hfilter
    · refine h.elsewhere ?_ ?_ ?_ ?_ ?_ ?_ ?_
      · simp [forget, stopTap]
      · simp [forget, stopTap]
      · simpa [forget, stopTap] using h.apart
      · intro tap htap
        simp only [forget, stopTap, change_taps, change_urls] at htap ⊢
        exact h.taps tap (List.mem_filter.mp htap).1
      · exact change_ingress_of_ne _ _ _ _ hne
      · simp [forget, stopTap, hne]
      · simpa [forget, stopTap] using hfilter

/-- A route that points at its tap points back. -/
lemma restore (h : Remembered configured k m) {route : RouteKey} {row : InspectedRoute}
    (outcome : Outcome) (changed : Bool) (hnone : route = k → m.NotApplying k)
    (hrow : m.rows route = some row) (hingress : m.ingress route = some row.lensUrl) :
    Remembered configured k (m.restore route row outcome changed) ∧
      (route = k → outcome = .applied →
        (m.restore route row outcome changed).ingress k = originOf configured k) := by
  simp only [Machine.restore]
  by_cases hroute : route = k
  · subst hroute
    have horigin := (h.rows row hrow).2
    have hsettled := hnone rfl
    split_ifs with happlied
    · have hback : ((m.change route row.originalOrigin true).forget route).ingress route =
          originOf configured route := by
        rw [horigin]
        simp [forget, change]
      exact ⟨h.settled rfl rfl (fun _ htap => htap) (.inr (by simp [forget])) (.inl hback) hsettled,
        fun _ _ => hback⟩
    · refine ⟨h.settled (by simp) (by simp) (by simp) (.inl (by simp)) ?_ ?_,
        fun _ happlied' => absurd happlied' happlied⟩
      · rw [change_ingress_self]
        split_ifs
        · exact .inl horigin.symm
        · exact .inr ⟨row.lensUrl, hingress, row, by simpa using hrow, rfl⟩
      · simpa [NotApplying] using hsettled
  · have hne : k ≠ route := Ne.symm hroute
    refine ⟨?_, fun heq => absurd heq hroute⟩
    split_ifs with happlied
    · exact h.elsewhere rfl (fun _ hmem => hmem) h.apart h.taps
        (change_ingress_of_ne m route row.originalOrigin true hne) (by simp [Machine.forget, hne]) rfl
    · exact h.elsewhere (by simp) (by simp) (by simpa using h.apart) (by simpa using h.taps)
        (change_ingress_of_ne _ _ _ _ hne) (by simp) (by simp)

/-- The row of a route that doesn't point at its tap goes. -/
lemma forget (h : Remembered configured k m) {route : RouteKey} {row : InspectedRoute}
    (hnone : route = k → m.NotApplying k) (hrow : m.rows route = some row)
    (hingress : m.ingress route ≠ some row.lensUrl) :
    Remembered configured k (m.forget route) ∧
      (route = k → (m.forget route).ingress k = originOf configured k) := by
  by_cases hroute : route = k
  · subst hroute
    have hown : m.ingress route = originOf configured route := by
      refine h.own_of_ne_row fun other hsome => ?_
      rw [← Option.some.inj (hrow.symm.trans hsome)]
      exact hingress
    exact ⟨h.settled rfl rfl (fun _ htap => htap) (.inr (by simp [Machine.forget])) (.inl hown)
      (hnone rfl), fun _ => hown⟩
  · have hne : k ≠ route := Ne.symm hroute
    exact ⟨h.elsewhere rfl (fun _ hmem => hmem) h.apart h.taps rfl
      (by simp [Machine.forget, hne]) rfl, fun heq => absurd heq hroute⟩

/-- A tap that stops changes no route. -/
lemma stopTap (h : Remembered configured k m) (owner : String) (scope : RouteKey) :
    Remembered configured k (m.stopTap owner scope) :=
  h.elsewhere rfl (fun _ hmem => hmem) h.apart
    (fun tap htap => h.taps tap (List.mem_filter.mp htap).1) rfl rfl rfl

lemma applyOff (h : Remembered configured k m) {owner : String} {route : RouteKey}
    {outcome : Outcome} {changed : Bool} (hnone : route = k → m.NotApplying k)
    (hok : m.applyOff owner route outcome changed = .ok m') :
    Remembered configured k m' ∧
      (route = k → outcome = .applied → m'.ingress k = originOf configured k) := by
  simp only [Machine.applyOff, planOff] at hok
  cases hrow : m.rows route with
  | none => simp [hrow, bind, Except.bind] at hok
  | some row =>
      by_cases hingress : m.ingress route = some row.lensUrl
      · obtain ⟨hrestored, hback⟩ := h.restore outcome changed hnone hrow hingress
        simp only [hrow, hingress, bind, Except.bind, if_true] at hok
        cases hok
        split_ifs
        · exact ⟨hrestored.stopTap owner route, hback⟩
        · exact ⟨hrestored, hback⟩
      · obtain ⟨hforgotten, hown⟩ := h.forget hnone hrow hingress
        simp only [hrow, hingress, bind, Except.bind, if_false] at hok
        cases hok
        exact ⟨hforgotten.stopTap owner route, fun hroute _ => hown hroute⟩

lemma revert (h : Remembered configured k m) (owner : String) {route : RouteKey}
    (outcome : Outcome) (changed : Bool) (hnone : route = k → m.NotApplying k) :
    Remembered configured k (m.revert owner route outcome changed) ∧
      (route = k → outcome = .applied →
        (m.revert owner route outcome changed).ingress k = originOf configured k) := by
  simp only [Machine.revert, planOff]
  cases hrow : m.rows route with
  | none =>
      refine ⟨h.stopTap owner route, ?_⟩
      rintro rfl -
      exact h.own_of_ne_row fun row hsome => by simp [hrow] at hsome
  | some row =>
      by_cases hingress : m.ingress route = some row.lensUrl
      · obtain ⟨hrestored, hback⟩ := h.restore outcome changed hnone hrow hingress
        simp only [hingress, if_true]
        exact ⟨hrestored.stopTap owner route, hback⟩
      · obtain ⟨hforgotten, hown⟩ := h.forget hnone hrow hingress
        simp only [hingress, if_false]
        exact ⟨hforgotten.stopTap owner route, fun hroute _ => hown hroute⟩

/-- The changes that a process had on its way may still be made. -/
lemma foldl_change (changed : RouteKey → Bool) (lost : List Applying)
    (hlost : ∀ pending ∈ lost, pending.route = k → m.HasRow k pending.url)
    (hingress : m.ingress k = originOf configured k ∨ ∃ url, m.ingress k = some url ∧ m.HasRow k url) :
    ∃ m', lost.foldl (fun m pending => m.change pending.route pending.url (changed pending.route)) m
        = m' ∧ m'.configured = m.configured ∧ m'.rows = m.rows ∧ m'.taps = m.taps ∧
      m'.urls = m.urls ∧ m'.applying = m.applying ∧
      (m'.ingress k = originOf configured k ∨ ∃ url, m'.ingress k = some url ∧ m.HasRow k url) ∧
      ((∀ pending ∈ lost, pending.route ≠ k) → m'.ingress k = m.ingress k) := by
  induction lost generalizing m with
  | nil => exact ⟨m, rfl, rfl, rfl, rfl, rfl, rfl, hingress, fun _ => rfl⟩
  | cons pending rest ih =>
      set m₁ := m.change pending.route pending.url (changed pending.route) with hm₁
      have hrows : m₁.rows = m.rows := change_rows ..
      have hhas : ∀ url, m₁.HasRow k url ↔ m.HasRow k url := by
        intro url
        rw [HasRow, HasRow, hrows]
      have hingress₁ : m₁.ingress k = originOf configured k ∨
          ∃ url, m₁.ingress k = some url ∧ m₁.HasRow k url := by
        by_cases hroute : pending.route = k
        · subst hroute
          rw [hm₁, change_ingress_self]
          split_ifs
          · refine .inr ⟨pending.url, rfl, (hhas _).mpr ?_⟩
            exact hlost pending List.mem_cons_self rfl
          · exact hingress.imp_right fun ⟨url, hurl, hrow⟩ => ⟨url, hurl, (hhas url).mpr hrow⟩
        · rw [hm₁, change_ingress_of_ne _ _ _ _ (Ne.symm hroute)]
          exact hingress.imp_right fun ⟨url, hurl, hrow⟩ => ⟨url, hurl, (hhas url).mpr hrow⟩
      obtain ⟨m', hfold, hconfigured, hrows', htaps, hurls, happlying, hnext, hkeep⟩ :=
        ih (fun p hp hroute => (hhas _).mpr (hlost p (List.mem_cons_of_mem _ hp) hroute)) hingress₁
      refine ⟨m', hfold, ?_, hrows'.trans hrows, ?_, ?_, ?_, ?_, fun hnot => ?_⟩
      · rw [hconfigured, hm₁, change_configured]
      · rw [htaps, hm₁, change_taps]
      · rw [hurls, hm₁, change_urls]
      · rw [happlying, hm₁, change_applying]
      · exact hnext.imp_right fun ⟨url, hurl, hrow⟩ => ⟨url, hurl, (hhas url).mp hrow⟩
      · rw [hkeep fun p hp => hnot p (List.mem_cons_of_mem _ hp), hm₁]
        exact change_ingress_of_ne _ _ _ _ (Ne.symm (hnot pending List.mem_cons_self))

/-- A process ends without more: the rows stay. -/
lemma crash (h : Remembered configured k m) (owner : String) (changed : RouteKey → Bool) :
    Remembered configured k (m.crash owner changed) := by
  simp only [Machine.crash]
  obtain ⟨m', hfold, hconfigured, hrows, htaps, hurls, happlying, hingress, hkeep⟩ :=
    foldl_change changed (m.applying.filter fun pending => pending.owner = owner)
      (fun pending hpending hroute =>
        (h.applying pending (List.mem_filter.mp hpending).1 hroute).2) h.ingress
  rw [hfold]
  have hhas : ∀ url, m.HasRow k url → m'.HasRow k url := by
    intro url hrow
    rwa [HasRow, hrows]
  refine ⟨hconfigured.trans h.same, ?_, fun tap htap => ?_, fun row hsome => ?_, ?_,
    fun pending hpending hroute => ?_, ?_⟩
  · rw [hurls]
    exact h.apart
  · have hmem : tap ∈ m'.taps := (List.mem_filter.mp htap).1
    rw [htaps] at hmem
    rw [hurls]
    exact h.taps tap hmem
  · rw [hurls]
    rw [hrows] at hsome
    exact h.rows row hsome
  · exact hingress.imp_right fun ⟨url, hurl, hrow⟩ => ⟨url, hurl, hhas url hrow⟩
  · obtain ⟨hmem, howner⟩ := List.mem_filter.mp hpending
    rw [happlying] at hmem
    obtain ⟨horigin, hrow⟩ := h.applying pending hmem hroute
    -- the one inspection of the route is this one, of another process
    have hnot : ∀ p ∈ m.applying.filter (fun pending => pending.owner = owner), p.route ≠ k := by
      intro p hp hpk
      obtain ⟨hp, hpowner⟩ := List.mem_filter.mp hp
      rw [h.eq_of_applying hp hmem hpk hroute] at hpowner
      simp only [decide_eq_true_eq, ne_eq, decide_not, Bool.not_eq_eq_eq_not, Bool.not_true,
        decide_eq_false_iff_not] at hpowner howner
      exact howner hpowner
    exact ⟨(hkeep hnot).trans horigin, hhas _ hrow⟩
  · rw [happlying]
    exact (List.Sublist.filter _ List.filter_sublist).length_le.trans h.once

/-- Every undisturbed step keeps route and row. -/
lemma step (h : Remembered configured k m) {a : Action} (hundisturbed : Undisturbed k m a)
    (ht : m.step a = some m') : Remembered configured k m' := by
  cases a with
  | applyOn owner route url =>
      simp only [Machine.step] at ht
      split_ifs at ht with hurl
      exact h.applyOn hurl hundisturbed (Except.toOption_eq_some.mp ht)
  | finishOn pending outcome changed =>
      simp only [Machine.step] at ht
      split_ifs at ht with hpending
      cases ht
      exact h.finishOn hpending hundisturbed
  | applyOff owner route outcome changed =>
      exact (h.applyOff hundisturbed (Except.toOption_eq_some.mp ht)).1
  | revert owner route outcome changed =>
      cases ht
      exact (h.revert owner outcome changed hundisturbed).1
  | crash owner changed =>
      cases ht
      exact h.crash owner changed

end Remembered

/-- The route of a service. -/
def appRoute : RouteKey :=
  ("acc", "app.example.com", none)

def inspected : List Action :=
  [.applyOn "app" appRoute "http://127.0.0.1:9001",
    .finishOn ⟨"app", appRoute, "http://127.0.0.1:9001"⟩ .applied true]

end Machine

end Teitunnel.Inspect
