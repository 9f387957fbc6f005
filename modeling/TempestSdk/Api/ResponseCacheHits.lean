import TempestSdk.Api.ResponseCache

/-!
# What a hit serves

A stored response is decorated; decorating it again changes nothing, so a hit
is the reply that was sent when the response was stored, apart from `x-cache`.
-/

namespace TempestSdk.ResponseCache

variable {Body : Type} {config : Config Body}

structure Fixed (headers : Headers) (name value : Text) : Prop where
  there : name ∈ headers.map Prod.fst
  only : ∀ header ∈ headers, header.1 = name → header.2 = value

variable {headers : Headers} {name value : Text}

theorem mem_setHeader {header : Text × Text} (member : header ∈ setHeader headers name value) :
    header = (name, value) ∨ (header ∈ headers ∧ header.1 ≠ name) := by
  unfold setHeader at member
  split at member
  case isTrue =>
    obtain ⟨old, inside, same⟩ := List.mem_map.mp member
    split at same
    case isTrue => exact .inl same.symm
    case isFalse differs => exact .inr (same ▸ ⟨inside, differs⟩)
  case isFalse absent =>
    rcases List.mem_append.mp member with inside | new
    · refine .inr ⟨inside, ?_⟩
      rintro rfl
      exact absent (List.mem_map_of_mem inside)
    · exact .inl (List.mem_singleton.mp new)

theorem names_setHeader {known : Text} : known ∈ (setHeader headers name value).map Prod.fst ↔
      known = name ∨ known ∈ headers.map Prod.fst := by
  unfold setHeader
  split
  case isTrue there =>
    have names : (headers.map fun header =>
        if header.1 = name then (name, value) else header).map Prod.fst =
          headers.map Prod.fst := by
      rw [List.map_map]
      apply List.map_congr_left
      intro header _inside
      by_cases same : header.1 = name
      · simp [same]
      · simp [same]
    rw [names]
    constructor
    · exact .inr
    · rintro (rfl | inside)
      · exact there
      · exact inside
  case isFalse =>
    rw [List.map_append, List.mem_append, or_comm]
    exact or_congr_left List.mem_singleton

theorem fixed_setHeader : Fixed (setHeader headers name value) name value := by
  refine ⟨(names_setHeader).mpr (.inl rfl), ?_⟩
  intro header member same
  rcases mem_setHeader member with new | ⟨_inside, differs⟩
  · rw [new]
  · exact (differs same).elim

theorem Fixed.setHeader {known old : Text} (fixed : Fixed headers known old)
    (differs : known ≠ name) :
    Fixed (ResponseCache.setHeader headers name value) known old := by
  refine ⟨(names_setHeader).mpr (.inr fixed.there), ?_⟩
  intro header member same
  rcases mem_setHeader member with new | ⟨inside, _differs⟩
  · rw [new] at same
    exact (differs same.symm).elim
  · exact fixed.only header inside same

theorem Fixed.setDefault {known old : Text} (fixed : Fixed headers known old)
    (differs : known ≠ name) :
    Fixed (ResponseCache.setDefault headers name value) known old := by
  unfold ResponseCache.setDefault
  split
  case isTrue => exact fixed
  case isFalse =>
    refine ⟨?_, ?_⟩
    · rw [List.map_append]
      exact List.mem_append_left _ fixed.there
    · intro header member same
      rcases List.mem_append.mp member with inside | new
      · exact fixed.only header inside same
      · rw [List.mem_singleton.mp new] at same
        exact (differs same.symm).elim

theorem names_setDefault : name ∈ (setDefault headers name value).map Prod.fst := by
  unfold setDefault
  split
  case isTrue there => exact there
  case isFalse => simp

theorem setHeader_of_fixed (fixed : Fixed headers name value) :
    setHeader headers name value = headers := by
  unfold setHeader
  rw [if_pos fixed.there]
  have same : ∀ header ∈ headers,
      (if header.1 = name then (name, value) else header) = header := by
    intro header member
    split
    case isTrue named => exact Prod.ext named.symm (fixed.only header member named).symm
    case isFalse => rfl
  exact (List.map_congr_left same).trans (List.map_id' headers)

theorem setDefault_of_mem (there : name ∈ headers.map Prod.fst) :
    setDefault headers name value = headers := by
  unfold setDefault
  rw [if_pos there]

def without (headers : Headers) (name : Text) : Headers :=
  headers.filter fun header => header.1 ≠ name

theorem without_replaced : without (headers.map fun header =>
      if header.1 = name then (name, value) else header) name = without headers name := by
  unfold without
  induction headers with
  | nil => rfl
  | cons header rest induction =>
    rw [List.map_cons]
    by_cases named : header.1 = name
    · rw [if_pos named, List.filter_cons_of_neg (by simp),
        List.filter_cons_of_neg (by simp [named]), induction]
    · rw [if_neg named, List.filter_cons_of_pos (by simp [named]),
        List.filter_cons_of_pos (by simp [named]), induction]

theorem without_setHeader :
    without (setHeader headers name value) name = without headers name := by
  unfold setHeader
  split
  case isTrue => exact without_replaced
  case isFalse => simp [without]

theorem literal_ne {first second : String} (differs : first ≠ second) :
    literal first ≠ literal second := by
  intro same
  exact differs (String.toList_injective same)

theorem decorate_etag (etag : Text) :
    Fixed (config.decorate headers etag) (literal "etag") etag := by
  have tagged : Fixed (setDefault (setHeader headers (literal "etag") etag)
      (literal "cache-control") config.cache_control) (literal "etag") etag :=
    fixed_setHeader.setDefault (literal_ne (by decide))
  unfold Config.decorate
  simp only
  split
  · exact tagged
  · exact tagged.setHeader (literal_ne (by decide))

theorem decorate_decorate (etag : Text) : config.decorate (config.decorate headers etag) etag =
      config.decorate headers etag := by
  have tagged := setHeader_of_fixed (@decorate_etag _ config headers etag)
  have controlled : literal "cache-control" ∈ (config.decorate headers etag).map Prod.fst := by
    unfold Config.decorate
    simp only
    split
    · exact names_setDefault
    · exact (names_setHeader).mpr (.inr names_setDefault)
  have varied : config.vary ≠ [] → Fixed (config.decorate headers etag)
      (literal "vary") ((literal ", ").intercalate config.vary) := by
    intro varies
    unfold Config.decorate
    simp only
    rw [if_neg varies]
    exact fixed_setHeader
  rw [Config.decorate, tagged, setDefault_of_mem controlled]
  split
  case isTrue => rfl
  case isFalse varies => exact setHeader_of_fixed (varied varies)

theorem etagOf_stored (response : Response Body) :
    config.etagOf (config.stored response) = config.computeEtag response.body := by
  have fixed := @decorate_etag _ config (toDict response.headers)
    (config.computeEtag response.body)
  unfold Config.etagOf Config.stored
  cases found : (config.decorate (toDict response.headers)
      (config.computeEtag response.body)).find? fun header => header.1 = literal "etag" with
  | none =>
    obtain ⟨header, member, named⟩ := List.mem_map.mp fixed.there
    have absent := List.find?_eq_none.mp found header member
    simp [named] at absent
  | some header =>
    have named := List.find?_some found
    exact fixed.only header (List.mem_of_find?_eq_some found) (by simpa using named)

/-- The same reply apart from `x-cache`. -/
structure SameReply (reply other : Reply Body) : Prop where
  status_code : reply.status_code = other.status_code
  headers : without reply.headers (literal "x-cache") =
    without other.headers (literal "x-cache")
  body : reply.body = other.body
  media_type : reply.media_type = other.media_type

theorem hit_stored (response : Response Body) :
    SameReply (config.hit (config.stored response)) (config.miss response) := by
  refine ⟨rfl, ?_, rfl, rfl⟩
  unfold Config.hit Config.miss
  simp only
  rw [without_setHeader, without_setHeader, etagOf_stored]
  unfold Config.stored
  rw [decorate_decorate]

def Server.Stored (config : Config Body) (server : Server Body) (key : Text)
    (response : Response Body) : Prop :=
  ∃ origin sent, .miss origin response sent ∈ server.exchanges ∧ config.key origin = key ∧
    (sent = config.miss response ∨
      config.unchanged origin (config.computeEtag response.body) = true)

structure Server.Kept (config : Config Body) (server : Server Body) : Prop where
  entries : ∀ key entry, server.entries key = some entry →
    ∃ response, entry.1 = config.stored response ∧ server.Stored config key response
  hits : ∀ request reply, .hit request reply ∈ server.exchanges →
    ∃ response, server.Stored config (config.key request) response ∧
      SameReply reply (config.miss response)

variable {server next : Server Body}

theorem Server.Kept.initial : (initial : Server Body).Kept config := by
  refine ⟨?_, ?_⟩
  · intro key entry found
    cases found
  · intro request reply member
    cases member

theorem Server.Stored.answer {key : Text} {response : Response Body}
    {exchange : Exchange Body} (stored : server.Stored config key response) :
    (server.answer exchange).Stored config key response := by
  obtain ⟨origin, sent, member, same, answered⟩ := stored
  exact ⟨origin, sent, List.mem_append_left _ member, same, answered⟩

theorem Server.Kept.answer (kept : server.Kept config) {exchange : Exchange Body}
    (sound : ∀ request reply, exchange = .hit request reply →
      ∃ response, server.Stored config (config.key request) response ∧
        SameReply reply (config.miss response)) :
    (server.answer exchange).Kept config := by
  refine ⟨?_, ?_⟩
  · intro key entry found
    obtain ⟨response, same, stored⟩ := kept.entries key entry found
    exact ⟨response, same, stored.answer⟩
  · intro request reply member
    rcases List.mem_append.mp member with old | new
    · obtain ⟨response, stored, same⟩ := kept.hits request reply old
      exact ⟨response, stored.answer, same⟩
    · obtain ⟨response, stored, same⟩ :=
        sound request reply (List.mem_singleton.mp new).symm
      exact ⟨response, stored.answer, same⟩

theorem Server.get_some {key : Text} {cached : CachedResponse Body}
    (found : server.get key = some cached) :
    ∃ entry, server.entries key = some entry ∧ entry.1 = cached := by
  unfold Server.get at found
  obtain ⟨entry, held, live⟩ := Option.bind_eq_some_iff.mp found
  split at live
  · cases live
  · exact ⟨entry, held, Option.some.inj live⟩

theorem Server.Kept.receive (kept : server.Kept config) (request : Request) :
    (server.receive config request).Kept config := by
  have passing : Server.Kept config { server with
        pending := server.pending ++ [request] } :=
    ⟨kept.entries, kept.hits⟩
  unfold Server.receive
  simp only
  split
  · split
    · rename_i cached found
      split
      · apply kept.answer
        intro _request _reply impossible
        cases impossible
      · apply kept.answer
        intro served reply same
        cases same
        obtain ⟨entry, held, rfl⟩ := Server.get_some found
        obtain ⟨response, same, stored⟩ := kept.entries _ entry held
        exact ⟨response, stored, same ▸ hit_stored response⟩
    · exact passing
  · exact passing

theorem Server.Kept.respond (kept : server.Kept config) (request : Request)
    (response : Response Body) :
    (server.respond config request response).Kept config := by
  have quiet : ∀ exchange : Exchange Body, (∀ served reply, exchange ≠ .hit served reply) →
        (server.answer exchange).Kept config := by
    intro exchange other
    apply kept.answer
    intro served reply same
    exact (other served reply same).elim
  unfold Server.respond
  simp only
  split
  · split
    · refine ⟨?_, ?_⟩
      · intro key entry found
        by_cases own : key = config.key request
        · have written : some (config.stored response, server.clock + config.ttl) =
                some entry := by
            simpa [Server.answer, Server.store, own] using found
          cases written
          refine ⟨response, rfl, request,
            if config.unchanged request (config.computeEtag response.body) then
              config.notModified (config.computeEtag response.body)
            else config.miss response, ?_, own.symm, ?_⟩
          · exact List.mem_append_right _ (List.mem_singleton.mpr rfl)
          · by_cases unchanged : config.unchanged request
                (config.computeEtag response.body) = true
            · exact .inr unchanged
            · exact .inl (by rw [if_neg unchanged])
        · have before : server.entries key = some entry := by
            simpa [Server.answer, Server.store, own] using found
          obtain ⟨old, same, stored⟩ := kept.entries key entry before
          exact ⟨old, same, stored.answer⟩
      · intro served reply member
        rcases List.mem_append.mp member with old | new
        · obtain ⟨earlier, stored, same⟩ := kept.hits served reply old
          exact ⟨earlier, stored.answer, same⟩
        · cases List.mem_singleton.mp new
    · split
      · exact quiet _ fun _served _reply impossible => by cases impossible
      · exact quiet _ fun _served _reply impossible => by cases impossible
  · exact quiet _ fun _served _reply impossible => by cases impossible

theorem Server.Kept.step (kept : server.Kept config) {action : Action Body}
    (taken : step config server action = some next) : next.Kept config := by
  cases action with
  | elapse duration =>
    cases taken
    exact ⟨kept.entries, kept.hits⟩
  | receive request =>
    cases taken
    exact kept.receive request
  | respond place response =>
    obtain ⟨request, _there, rfl⟩ := Option.map_eq_some_iff.mp taken
    have left : Server.Kept config { server with
        pending := server.pending.eraseIdx place } :=
      ⟨kept.entries, kept.hits⟩
    exact left.respond request response

def plain : Config Text where
  ttl := 60
  cache_control := literal "private, max-age=60"
  methods := [literal "GET", literal "HEAD"]
  cacheable_status := [200]
  vary := []
  exempt := fun _ => false
  cacheable := fun _ => true
  cache_credentialed := false
  credential_headers := [literal "authorization", literal "cookie"]
  sha256 := fun text => text
  computeEtag := fun body => '"' :: body ++ ['"']
  etagMatches := fun sent etag => sent = etag
  skipCaching := fun _ => false

def get (path query : String) : Request :=
  ⟨literal "GET", literal path, literal query, []⟩

def twice : List (Action Text) :=
  [.receive (get "/a" ""), .respond 0 ⟨200, [], literal "body", none, false⟩,
    .receive (get "/a" "")]

end TempestSdk.ResponseCache
