import BraceTemplate.Registry.Store
import BraceTemplate.Proofs.Registry.Overriding

/- Reloading. All sources of a profile and a system are read one after the other, and one that cannot
   be read stops the loading (`Catalog.load_eq_readAll`). But a source reads the same whatever stands
   around it (`Catalog.readAll_append`) and the built-in manifests can be read, so only the further
   sources count, which are the same for every profile and system: either all of them load
   (`Catalog.loads_of_reads`) or all of them fail at the first further source that cannot be read
   (`Catalog.load_eq_error`). A store keeps its catalog. Once it is loaded, each of its steps has the
   answer that the catalog alone gives (`Catalog.Loads.perform`), and so has every run of them
   (`Catalog.Loads.run`, `Store.load_history`). -/
namespace BraceTemplate

theorem Manifest.read_eq_error {path text : String} {e : RegistryError}
    (h : read path text = .error e) : e = .invalidManifest path := by
  unfold read at h
  split at h
  · cases h
  · exact (Except.error.inj h).symm

namespace Catalog
variable {c : Catalog} {profile : Profile} {cms : Cms} {ss : List ManifestSource} {e : RegistryError}

/-! Reading sources. -/

theorem readAll_append (ss ss' : List ManifestSource) :
    readAll (ss ++ ss') = (readAll ss >>= fun read => (readAll ss').map (read ++ ·)) := by
  induction ss with
  | nil =>
    show readAll ss' = (readAll ss').map _
    cases readAll ss' <;> rfl
  | cons s ss ih =>
    rw [List.cons_append, readAll, readAll, ih]
    cases Manifest.read s.path s.text with
    | error e => rfl
    | ok m =>
      cases readAll ss with
      | error e => rfl
      | ok read => cases readAll ss' <;> rfl

theorem exists_readAll (h : ∀ s ∈ ss, ∃ m, Manifest.read s.path s.text = .ok m) :
    ∃ read, readAll ss = .ok read := by
  induction ss with
  | nil => exact ⟨[], rfl⟩
  | cons s ss ih =>
    obtain ⟨m, hm⟩ := h s List.mem_cons_self
    obtain ⟨read, hread⟩ := ih fun t ht => h t (List.mem_cons_of_mem s ht)
    refine ⟨(s.path, m) :: read, ?_⟩
    rw [readAll, hm, hread]
    rfl

/-- The source cannot be read, but all sources before it can. -/
def FailsAt (ss : List ManifestSource) (source : ManifestSource) (e : RegistryError) : Prop :=
  ∃ before after, ss = before ++ source :: after ∧
    (∀ s ∈ before, ∃ m, Manifest.read s.path s.text = .ok m) ∧
    Manifest.read source.path source.text = .error e

theorem FailsAt.invalid {source : ManifestSource} (h : FailsAt ss source e) :
    e = .invalidManifest source.path := by
  obtain ⟨_, _, _, _, hfault⟩ := h
  exact Manifest.read_eq_error hfault

/-- Reading fails at the first source that cannot be read. -/
theorem readAll_eq_error : readAll ss = .error e ↔ ∃ source, FailsAt ss source e := by
  constructor
  · intro h
    induction ss with
    | nil => cases h
    | cons s ss ih =>
      cases hs : Manifest.read s.path s.text with
      | error f =>
        rw [readAll, hs] at h
        cases h
        exact ⟨s, [], ss, rfl, by simp, hs⟩
      | ok m =>
        have hrest : readAll ss = .error e := by
          rw [readAll, hs] at h
          cases hss : readAll ss with
          | error f =>
            rw [hss] at h
            cases h
            rfl
          | ok read =>
            rw [hss] at h
            cases h
        obtain ⟨source, before, after, rfl, hbefore, hfault⟩ := ih hrest
        refine ⟨source, s :: before, after, rfl, fun t ht => ?_, hfault⟩
        rcases List.mem_cons.mp ht with rfl | ht
        · exact ⟨m, hs⟩
        · exact hbefore t ht
  · rintro ⟨source, before, after, rfl, hbefore, hfault⟩
    obtain ⟨read, hread⟩ := exists_readAll hbefore
    rw [readAll_append, hread, readAll, hfault]
    rfl

/-! Loading. -/

/-- All sources in the order of their merging, where the built-in manifests have the texts. -/
def sources (texts : BuiltinManifest → String) (c : Catalog) (profile : Profile) (cms : Cms) :
    List ManifestSource :=
  profile.manifests.map (fun m => ⟨m.path, texts m⟩) ++ c.extra ++
    [⟨cms.manifest.path, texts cms.manifest⟩]

/-- As long as the built-in texts read as the built-in manifests, loading is reading all sources. -/
theorem load_eq_readAll {texts : BuiltinManifest → String}
    (h : ∀ m : BuiltinManifest, Manifest.read m.path (texts m) = .ok m.manifest) :
    c.load profile cms =
      (readAll (c.sources texts profile cms)).map (Registry.ofManifests profile cms) := by
  have hbuiltin : ∀ ms : List BuiltinManifest,
      readAll (ms.map fun m => ⟨m.path, texts m⟩) = .ok (ms.map BuiltinManifest.entry) := by
    intro ms
    rw [readAll_eq_ok, List.forall₂_map_left_iff, List.forall₂_map_right_iff, List.forall₂_same]
    exact fun m _ => ⟨rfl, h m⟩
  have hlast : readAll [⟨cms.manifest.path, texts cms.manifest⟩] = .ok [cms.manifest.entry] :=
    hbuiltin [cms.manifest]
  rw [sources, readAll_append, readAll_append, hbuiltin, hlast, load]
  cases readAll c.extra <;> rfl

theorem load_eq_error : c.load profile cms = .error e ↔ ∃ source, FailsAt c.extra source e := by
  rw [← readAll_eq_error, load]
  cases readAll c.extra <;> simp [bind, Except.bind, pure, Except.pure]

/-- Every profile and system loads. -/
def Loads (c : Catalog) : Prop := ∀ profile cms, ∃ r, c.load profile cms = .ok r

/-- The further sources are the same for every profile and system. -/
theorem loads_of_load {r : Registry} (h : c.load profile cms = .ok r) : c.Loads := by
  intro profile' cms'
  obtain ⟨extra, hreads, -⟩ := load_eq_ok.mp h
  exact ⟨_, load_eq_ok.mpr ⟨extra, hreads, rfl⟩⟩

end Catalog

/-! Steps of a store. -/

namespace Store

/-- What a store can be told to do. -/
inductive Command where
  | reload (profile : Profile) (cms : Cms)
  | replace (r : Registry)

/-- The answer of one command, and the store behind it. -/
def perform (s : Store) : Command → Except RegistryError Registry × Store
  | .reload profile cms => s.reload profile cms
  | .replace r => (.ok (s.replace r).1, (s.replace r).2)

/-- The answers of commands in their order, and the store behind the last one. -/
def run (s : Store) : List Command → List (Except RegistryError Registry) × Store
  | [] => ([], s)
  | command :: commands =>
    let (answer, next) := s.perform command
    let (answers, last) := next.run commands
    (answer :: answers, last)

end Store

namespace Catalog
open Store (Command)

variable {c : Catalog}

/-- A command whose answer is a registry: with one registry current before it and one behind it.
    What a reload answers and publishes is what the catalog gives, whatever was current. -/
inductive Answers (c : Catalog) : Registry → Command → Registry → Registry → Prop where
  | reload {now next : Registry} {profile : Profile} {cms : Cms}
    (h : c.load profile cms = .ok next) : Answers c now (.reload profile cms) next next
  | replace {now next : Registry} : Answers c now (.replace next) now next

/-- Commands in their order, with their answers: each finds current what the one before it left. -/
inductive History (c : Catalog) : Registry → List Command → List Registry → Registry → Prop where
  | nil {now : Registry} : History c now [] [] now
  | cons {now next last answer : Registry} {command : Command} {commands : List Command}
    {answers : List Registry} (h : c.Answers now command answer next)
    (hrest : History c next commands answers last) :
    History c now (command :: commands) (answer :: answers) last

theorem Loads.perform (h : c.Loads) (now : Registry) (command : Command) :
    ∃ answer next, Store.perform ⟨c, now⟩ command = (.ok answer, ⟨c, next⟩) ∧
      c.Answers now command answer next := by
  cases command with
  | reload profile cms =>
    obtain ⟨r, hr⟩ := h profile cms
    refine ⟨r, r, ?_, .reload hr⟩
    simp [Store.perform, Store.reload, hr]
  | replace r => exact ⟨now, r, rfl, .replace⟩

theorem Loads.run (h : c.Loads) (now : Registry) (commands : List Command) :
    ∃ answers last, Store.run ⟨c, now⟩ commands = (answers.map .ok, ⟨c, last⟩) ∧
      c.History now commands answers last := by
  induction commands generalizing now with
  | nil => exact ⟨[], now, rfl, .nil⟩
  | cons command commands ih =>
    obtain ⟨answer, next, hperform, hanswers⟩ := h.perform now command
    obtain ⟨answers, last, hrun, hhistory⟩ := ih next
    refine ⟨answer :: answers, last, ?_, .cons hanswers hhistory⟩
    simp [Store.run, hperform, hrun]

end Catalog

namespace Store

/-- A store that is loaded never fails, and its answers do not depend on what was done before: a
    reload publishes and answers what its catalog gives, and the answer to a replacement is the
    registry that was current. A catalog that does not load for one profile and system loads for
    none, because of the first of its further sources that cannot be read. -/
theorem load_history (c : Catalog) (profile : Profile) (cms : Cms) :
    match load c profile cms with
    | .ok s => s.catalog = c ∧ c.load profile cms = .ok s.current ∧ c.Loads ∧
        ∀ commands, ∃ answers last, s.run commands = (answers.map .ok, ⟨c, last⟩) ∧
          c.History s.current commands answers last
    | .error e => (∃ source, Catalog.FailsAt c.extra source e ∧ e = .invalidManifest source.path) ∧
        ∀ profile cms, load c profile cms = .error e := by
  cases h : load c profile cms with
  | ok s =>
    obtain ⟨first, hfirst, rfl⟩ := Outcome.map_eq_ok.mp h
    have hloads := Catalog.loads_of_load hfirst
    exact ⟨rfl, hfirst, hloads, hloads.run first⟩
  | error e =>
    obtain ⟨source, hfails⟩ := Catalog.load_eq_error.mp (Outcome.map_eq_error.mp h)
    refine ⟨⟨source, hfails, hfails.invalid⟩, fun profile cms => ?_⟩
    exact Outcome.map_eq_error.mpr (Catalog.load_eq_error.mpr ⟨source, hfails⟩)

/-- Of two broken sources the first one is named. -/
example : (load ⟨[⟨"a.json", "\x7b"⟩, ⟨"b.json", "["⟩]⟩ .minimal .native).map (·.current.profile) =
    .error (.invalidManifest "a.json") := by cbv

end Store
end BraceTemplate
