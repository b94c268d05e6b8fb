import DOpenWrt.Rtp2httpd.M3u

/-!
# Names of playlist services

`find_unique_service_name` counts the numbered variants of a name in a bounded range and prints the next number into
a fixed buffer: when the name it returns is new, and what that gives for the services of any playlists.
-/

namespace Rtp2httpd
open CString

/-! ### Numbers, printed and read back -/

/-! ### Numbered variants -/

/-- The name with a number. -/
def numbered (serviceName : List UInt8) (n : Nat) : List UInt8 := serviceName ++ str "/" ++ decimal n

theorem suffixOf_numbered {serviceName : List UInt8} {n : Nat} (h0 : 0 < n) (h : n < 1000) :
    suffixOf serviceName (numbered serviceName n) = some n := by
  have happ : numbered serviceName n = serviceName ++ (UInt8.ofNat '/'.toNat :: decimal n) := by
    rw [numbered, List.append_assoc]
    rfl
  have hstarts : startsWith serviceName (serviceName ++ (UInt8.ofNat '/'.toNat :: decimal n)) = true :=
    List.isPrefixOf_iff_prefix.2 (List.prefix_append ..)
  rw [happ, suffixOf, List.drop_left]
  have hslash : (UInt8.ofNat '/'.toNat).toNat = '/'.toNat := rfl
  simp only [hstarts, hslash, and_self, if_true, strtol_decimal (Nat.lt_trans h (by norm_num : 1000 < 2 ^ 63))]
  rw [if_pos (by omega), Int.toNat_natCast]

theorem suffixOf_range {serviceName url : List UInt8} {n : Nat} (h : suffixOf serviceName url = some n) :
    0 < n ∧ n < 1000 := by
  unfold suffixOf at h
  split at h
  · split at h
    · split at h
      · split at h
        · next hrange =>
          cases h
          omega
        · cases h
      · cases h
    · cases h
  · cases h

/-- The number a new variant gets: one more than the largest in the list, two if there is none. -/
def NextSuffix (urls : List (List UInt8)) (serviceName : List UInt8) (k : Nat) : Prop :=
  (∀ url ∈ urls, suffixOf serviceName url = none) ∧ k = 2 ∨
    ∃ n, k = n + 1 ∧ (∃ url ∈ urls, suffixOf serviceName url = some n) ∧
      ∀ url ∈ urls, ∀ m, suffixOf serviceName url = some m → m ≤ n

variable {urls : List (List UInt8)} {serviceName : List UInt8} {k k' : Nat}

theorem NextSuffix.unique (h : NextSuffix urls serviceName k) (h' : NextSuffix urls serviceName k') : k = k' := by
  rcases h with ⟨hnone, rfl⟩ | ⟨n, rfl, ⟨url, hurl, hn⟩, hmax⟩ <;>
    rcases h' with ⟨hnone', rfl⟩ | ⟨n', rfl, ⟨url', hurl', hn'⟩, hmax'⟩
  · rfl
  · rw [hnone url' hurl'] at hn'
    cases hn'
  · rw [hnone' url hurl] at hn
    cases hn
  · rw [Nat.le_antisymm (hmax' url hurl n hn) (hmax url' hurl' n' hn')]

theorem NextSuffix.le (h : NextSuffix urls serviceName k) : 2 ≤ k ∧ k ≤ 1000 := by
  rcases h with ⟨-, rfl⟩ | ⟨n, rfl, ⟨url, -, hn⟩, -⟩
  · omega
  · have := suffixOf_range hn
    omega

/-- Below the bound of the counted numbers the next variant is new. -/
theorem NextSuffix.not_mem (h : NextSuffix urls serviceName k) (hk : k < 1000) : numbered serviceName k ∉ urls := by
  intro hmem
  have hcount := @suffixOf_numbered serviceName k (by have := h.le; omega) hk
  rcases h with ⟨hnone, -⟩ | ⟨n, rfl, -, hmax⟩
  · rw [hnone _ hmem] at hcount
    cases hcount
  · exact Nat.not_succ_le_self n (hmax _ hmem _ hcount)

/-! ### The scan -/

theorem scanServices_append (urls : List (List UInt8)) (url : List UInt8) :
    scanServices serviceName (urls ++ [url]) =
      ((scanServices serviceName urls).1 || url = serviceName,
        max (scanServices serviceName urls).2 ((suffixOf serviceName url).getD 0)) := by
  rw [scanServices, List.foldl_append]
  rfl

theorem scanServices_fst : (scanServices serviceName urls).1 = true ↔ serviceName ∈ urls := by
  induction urls using List.reverseRecOn with
  | nil => simp [scanServices]
  | append_singleton urls url ih =>
    rw [scanServices_append, Bool.or_eq_true, ih, decide_eq_true_eq, List.mem_append, List.mem_singleton,
      eq_comm (a := url)]

theorem scanServices_snd_ge : ∀ url ∈ urls, ∀ m, suffixOf serviceName url = some m →
    m ≤ (scanServices serviceName urls).2 := by
  induction urls using List.reverseRecOn with
  | nil => exact fun url h => absurd h List.not_mem_nil
  | append_singleton urls last ih =>
    intro url hurl m hm
    rw [scanServices_append]
    rcases List.mem_append.1 hurl with h | h
    · exact le_max_of_le_left (ih url h m hm)
    · obtain rfl := List.mem_singleton.1 h
      exact le_max_of_le_right (by rw [hm, Option.getD_some])

/-- The maximum is one of the numbers, or none was counted. -/
theorem scanServices_snd_mem : (scanServices serviceName urls).2 = 0 ∨
    ∃ url ∈ urls, suffixOf serviceName url = some (scanServices serviceName urls).2 := by
  induction urls using List.reverseRecOn with
  | nil => exact .inl rfl
  | append_singleton urls last ih =>
    rw [scanServices_append]
    rcases le_total ((suffixOf serviceName last).getD 0) (scanServices serviceName urls).2 with hle | hle
    · rw [max_eq_left hle]
      exact ih.imp_right fun ⟨url, hurl, hs⟩ => ⟨url, List.mem_append_left _ hurl, hs⟩
    · rw [max_eq_right hle]
      cases hlast : suffixOf serviceName last with
      | none => exact .inl rfl
      | some m => exact .inr ⟨last, List.mem_append_right _ List.mem_cons_self, hlast⟩

theorem scanServices_snd_eq_zero : (scanServices serviceName urls).2 = 0 ↔
    ∀ url ∈ urls, suffixOf serviceName url = none := by
  constructor
  · intro hzero url hurl
    cases hs : suffixOf serviceName url with
    | none => rfl
    | some m =>
      have hle := scanServices_snd_ge url hurl m hs
      have hpos := (suffixOf_range hs).1
      omega
  · intro hnone
    rcases @scanServices_snd_mem urls serviceName with h | ⟨url, hurl, hs⟩
    · exact h
    · rw [hnone url hurl] at hs
      cases hs

theorem nextSuffix_scanServices : NextSuffix urls serviceName
    (if 0 < (scanServices serviceName urls).2 then (scanServices serviceName urls).2 + 1 else 2) := by
  split
  · next hpos =>
    exact .inr ⟨_, rfl, scanServices_snd_mem.resolve_left (by omega), scanServices_snd_ge⟩
  · next hpos => exact .inl ⟨scanServices_snd_eq_zero.1 (by omega), rfl⟩

/-- The name itself when neither it nor a numbered variant is in the list, else the next variant, cut to the
buffer. -/
theorem findUniqueServiceName_eq (hk : NextSuffix urls serviceName k) :
    findUniqueServiceName urls serviceName =
      if serviceName ∉ urls ∧ ∀ url ∈ urls, suffixOf serviceName url = none then serviceName
      else fit MAX_SERVICE_NAME (numbered serviceName k) := by
  rw [hk.unique nextSuffix_scanServices]
  exact if_congr (and_congr (not_congr scanServices_fst) scanServices_snd_eq_zero) rfl rfl

/-! ### When the name is new -/

/-- No service has the name returned, and it is the requested one if that was free. -/
def NameUnique (urls : List (List UInt8)) (serviceName result : List UInt8) : Prop :=
  result ∉ urls ∧ (serviceName ∉ urls → result = serviceName)

/-- For a free name: it has no numbered variant, or fills the buffer. For a taken one: the next variant fits the
buffer and either stays in the range of the counted numbers or is not in use, or what the buffer leaves of it is not
in use. -/
def UniqueWhen (urls : List (List UInt8)) (serviceName : List UInt8) : Prop :=
  if serviceName ∈ urls then
    ∀ k, NextSuffix urls serviceName k →
      if (numbered serviceName k).length < MAX_SERVICE_NAME then k = 1000 → numbered serviceName k ∉ urls
      else fit MAX_SERVICE_NAME (numbered serviceName k) ∉ urls
  else (∀ url ∈ urls, suffixOf serviceName url = none) ∨ serviceName.length + 1 = MAX_SERVICE_NAME

theorem fit_of_lt {size : Nat} {s : List UInt8} (h : s.length < size) : fit size s = s :=
  List.take_of_length_le (by omega)

/-- A longer string cut to the buffer is its proper prefix only when that fills the buffer. -/
theorem fit_append_eq_left {size : Nat} {s t : List UInt8} (ht : t ≠ []) (hsize : 0 < size) :
    fit size (s ++ t) = s ↔ s.length + 1 = size := by
  have htl : 0 < t.length := List.length_pos_iff.2 ht
  constructor
  · intro h
    have hlen := congrArg List.length h
    rw [fit, List.length_take, List.length_append] at hlen
    omega
  · intro h
    rw [fit, ← h, Nat.add_sub_cancel, List.take_left]

theorem nameUnique_iff : NameUnique urls serviceName (findUniqueServiceName urls serviceName) ↔
    UniqueWhen urls serviceName := by
  obtain ⟨k, hk⟩ : ∃ k, NextSuffix urls serviceName k := ⟨_, nextSuffix_scanServices⟩
  rw [findUniqueServiceName_eq hk, NameUnique, UniqueWhen]
  by_cases htaken : serviceName ∈ urls
  · rw [if_neg fun h => h.1 htaken, if_pos htaken, and_iff_left fun h => absurd htaken h]
    constructor
    · intro hnew k' hk'
      obtain rfl := hk.unique hk'
      split
      · next hfits => exact fun _ => fit_of_lt hfits ▸ hnew
      · exact hnew
    · intro hwhen
      have hwhen := hwhen k hk
      split at hwhen
      · next hfits =>
        rw [fit_of_lt hfits]
        rcases Nat.lt_or_eq_of_le hk.le.2 with hlt | heq
        · exact hk.not_mem hlt
        · exact hwhen heq
      · exact hwhen
  · rw [if_neg htaken]
    by_cases hnone : ∀ url ∈ urls, suffixOf serviceName url = none
    · rw [if_pos ⟨htaken, hnone⟩]
      exact ⟨fun _ => .inl hnone, fun _ => ⟨htaken, fun _ => rfl⟩⟩
    · have hsuffix : str "/" ++ decimal k ≠ [] := List.append_ne_nil_of_right_ne_nil _ (decimal_ne_nil k)
      rw [if_neg fun h => hnone h.2, or_iff_right hnone, numbered, List.append_assoc,
        ← fit_append_eq_left (s := serviceName) hsuffix (by decide : 0 < MAX_SERVICE_NAME)]
      exact ⟨fun h => h.2 htaken, fun h => ⟨h.symm ▸ htaken, fun _ => h⟩⟩

/-! ### Runs -/

section Run

variable {σ : Type*} (address : AddressParser σ)

/-- What creating a service preserves, every playlist preserves. -/
theorem m3uParseAndCreateServices_induction {P : Services σ → Prop}
    (hcreate : ∀ services serviceName url source stripUrlLabel, P services →
      P (createServiceFromUrl address services serviceName url source stripUrlLabel).1)
    {services : Services σ} (h : P services) (content : List UInt8) (sourceUrl : Option (List UInt8)) :
    P (m3uParseAndCreateServices address services content sourceUrl) := by
  have hurl : ∀ services extinf line source, P services → P (processUrlLine address services extinf line source) := by
    intro services extinf line source h
    unfold processUrlLine
    split
    · have hmain := hcreate services (nameWithLabel extinf.name (httpFindUrlLabel line)) line source true h
      split
      · next heq => rwa [heq] at hmain
      · next heq =>
        rw [heq] at hmain
        split
        · exact hmain
        · exact hcreate _ _ _ _ _ hmain
    · exact h
  have hline : ∀ source (state : M3uState σ) line, P state.services →
      P (processLine address source state line).services := by
    intro source state line h
    unfold processLine
    split
    · exact h
    split
    · exact h
    split
    · exact h
    split
    · exact h
    · exact hurl _ _ _ _ h
  have hlines : ∀ source (lines : List (List UInt8)) (state : M3uState σ), P state.services →
      P (lines.foldl (processLine address source) state).services := by
    intro source lines
    induction lines with
    | nil => exact fun state h => h
    | cons line lines ih => exact fun state h => ih _ (hline source state line h)
  exact hlines _ _ _ h

/-- The services of the playlists follow the initial ones, with names all different and none in use before. -/
def Distinct (initial : List (Service σ)) (services : Services σ) : Prop :=
  ∃ (created : List (Service σ)) (names : List (List UInt8)), services.list = initial ++ created ∧
    created.map Service.url = names.map some ∧ names.Nodup ∧ ∀ name ∈ names, name ∉ initial.filterMap Service.url

/-- Every call so far is as `find_unique_service_name` answers it; if all meet the condition, the services are
distinct. -/
structure NamesInv (initial : List (Service σ)) (services : Services σ) : Prop where
  answered : ∀ q ∈ services.requests, q.result = findUniqueServiceName q.existing q.serviceName
  distinct : (∀ q ∈ services.requests, UniqueWhen q.existing q.serviceName) → Distinct initial services

theorem urls_of_created {initial created : List (Service σ)} {names : List (List UInt8)}
    (h : created.map Service.url = names.map some) :
    (initial ++ created).filterMap Service.url = initial.filterMap Service.url ++ names := by
  have hmap : created.filterMap Service.url = (created.map Service.url).filterMap id := by
    rw [List.filterMap_map]
    rfl
  rw [List.filterMap_append, hmap, h, List.filterMap_map]
  exact congrArg _ List.filterMap_some

theorem Distinct.create {initial : List (Service σ)} {services : Services σ} (h : Distinct initial services)
    {uniqueName : List UInt8} (hnew : uniqueName ∉ services.urls) (source : ServiceSource) (parsed : σ)
    (requests : List NameRequest) :
    Distinct initial ⟨services.list ++ [⟨some uniqueName, source, parsed⟩], requests⟩ := by
  obtain ⟨created, names, hlist, hurls, hnodup, hinitial⟩ := h
  rw [Services.urls, hlist, urls_of_created hurls, List.mem_append, not_or] at hnew
  refine ⟨created ++ [⟨some uniqueName, source, parsed⟩], names ++ [uniqueName], ?_, ?_, ?_, ?_⟩
  · rw [hlist, List.append_assoc]
  · rw [List.map_append, List.map_append, hurls]
    rfl
  · exact List.nodup_append.2 ⟨hnodup, List.nodup_singleton _, fun a ha b hb => by
      obtain rfl := List.mem_singleton.1 hb
      exact fun heq => hnew.2 (heq ▸ ha)⟩
  · intro name hname
    rcases List.mem_append.1 hname with hname | hname
    · exact hinitial name hname
    · obtain rfl := List.mem_singleton.1 hname
      exact hnew.1

theorem NamesInv.create {initial : List (Service σ)} {services : Services σ} (h : NamesInv initial services)
    (serviceName url : List UInt8) (source : ServiceSource) (stripUrlLabel : Bool) :
    NamesInv initial (createServiceFromUrl address services serviceName url source stripUrlLabel).1 := by
  have hanswered : ∀ q ∈ services.requests ++
      [⟨services.urls, serviceName, findUniqueServiceName services.urls serviceName⟩],
      q.result = findUniqueServiceName q.existing q.serviceName := by
    intro q hq
    rcases List.mem_append.1 hq with hq | hq
    · exact h.answered q hq
    · obtain rfl := List.mem_singleton.1 hq
      rfl
  unfold createServiceFromUrl
  cases serviceCreate address (normalizedUrl address url stripUrlLabel) with
  | none => exact ⟨hanswered, fun hall => h.distinct fun q hq => hall q (List.mem_append_left _ hq)⟩
  | some parsed =>
    refine ⟨hanswered, fun hall => ?_⟩
    have hnew : NameUnique services.urls serviceName (findUniqueServiceName services.urls serviceName) :=
      nameUnique_iff.2 (hall _ (List.mem_append_right _ List.mem_cons_self))
    exact (h.distinct fun q hq => hall q (List.mem_append_left _ hq)).create hnew.1 source parsed _

/-- The services after playlists have been read one after the other, each with the address it came from. -/
def loadPlaylists (initial : List (Service σ)) (playlists : List (List UInt8 × Option (List UInt8))) : Services σ :=
  playlists.foldl (fun services playlist => m3uParseAndCreateServices address services playlist.1 playlist.2)
    ⟨initial, []⟩

theorem loadPlaylists_namesInv (initial : List (Service σ)) (playlists : List (List UInt8 × Option (List UInt8))) :
    NamesInv initial (loadPlaylists address initial playlists) := by
  have hstart : NamesInv initial ⟨initial, []⟩ :=
    ⟨fun q hq => absurd hq List.not_mem_nil, fun _ => ⟨[], [], (List.append_nil _).symm, rfl, List.nodup_nil,
      fun name hname => absurd hname List.not_mem_nil⟩⟩
  unfold loadPlaylists
  generalize (⟨initial, []⟩ : Services σ) = services at hstart
  induction playlists generalizing services with
  | nil => exact hstart
  | cons playlist playlists ih =>
    exact ih _ (m3uParseAndCreateServices_induction address
      (fun _ serviceName url source stripUrlLabel h => h.create address serviceName url source stripUrlLabel) hstart _ _)

/-- A call returns a new name, the requested one if free, exactly under the condition; and when all calls of a run
meet it, each does, and the services of the playlists have names of their own. -/
theorem serviceNames_unique (initial : List (Service σ)) (playlists : List (List UInt8 × Option (List UInt8))) :
    (∀ urls serviceName, NameUnique urls serviceName (findUniqueServiceName urls serviceName) ↔
      UniqueWhen urls serviceName) ∧
    ((∀ q ∈ (loadPlaylists address initial playlists).requests, UniqueWhen q.existing q.serviceName) →
      (∀ q ∈ (loadPlaylists address initial playlists).requests, NameUnique q.existing q.serviceName q.result) ∧
      Distinct initial (loadPlaylists address initial playlists)) := by
  refine ⟨fun urls serviceName => nameUnique_iff, fun hall => ?_⟩
  have hinv := loadPlaylists_namesInv address initial playlists
  refine ⟨fun q hq => ?_, hinv.distinct hall⟩
  rw [hinv.answered q hq]
  exact nameUnique_iff.2 (hall q hq)

end Run

/-- Addresses that are taken as they are. -/
def plainAddress : AddressParser (List UInt8) where
  extractWrappedUrl := fun _ => none
  buildAppendedCatchupUrl := fun _ _ => none
  serviceCreateFromRtpUrl := some
  serviceCreateFromRtspUrl := some
  serviceCreateFromHttpUrl := some

/-- A channel `a`, one named `a/999`, and two more `a`. -/
def repeatedChannel : List UInt8 :=
  str "#EXTINF:-1,a\nrtp://239.0.0.1:1\n" ++ str "#EXTINF:-1,a/999\nrtp://239.0.0.1:2\n" ++
    str "#EXTINF:-1,a\nrtp://239.0.0.1:3\n" ++ str "#EXTINF:-1,a\nrtp://239.0.0.1:4\n"

/-- Past the counted numbers the same variant is given out again, and a free name is not given out while a variant
of it exists. -/
theorem serviceNames_duplicate :
    (loadPlaylists plainAddress [] [(repeatedChannel, none)]).urls =
      [str "a", str "a/999", str "a/1000", str "a/1000"] ∧
    ¬ NameUnique [str "news/5"] (str "news") (findUniqueServiceName [str "news/5"] (str "news")) := by
  refine ⟨by decide +kernel, fun h => ?_⟩
  have hfree : str "news" ∉ [str "news/5"] := by decide +kernel
  exact absurd (h.2 hfree) (by decide +kernel)

end Rtp2httpd
