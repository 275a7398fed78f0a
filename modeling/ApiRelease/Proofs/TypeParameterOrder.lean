import ApiRelease.Proofs.Conservation
import ApiRelease.Proofs.DeclarationDocuments
import ApiRelease.Proofs.Itself
import ApiRelease.Proofs.KindChange
import ApiRelease.Proofs.ReorderedTargets

/-! # The order of type parameters

Type parameters are found by their names. If they have different names, another order of
them is no change of any of them, and no other check looks at their order. So an export
whose type parameters changed places is reported just if something else is noticed in it or
further down, and what is reported then does not say that they did.
-/
namespace ApiRelease

/-- Type parameters are found by their names, wherever they stand. -/
theorem TypeParameterChange.detectIn_of_perm {olds news : List TypeParameter}
    (h : (olds.map (·.name)).Nodup) (hperm : olds.Perm news) : detectIn olds news = [] := by
  have hnames : (news.map (·.name)).Nodup := (hperm.map _).nodup_iff.mp h
  have hfound : ∀ p ∈ news, find? news p.name = some p := by
    intro p hp
    obtain ⟨l,hl,hfind,hname⟩ := exists_find?_of_mem hp
    rw [hfind, List.inj_on_of_nodup_map hnames hl hp hname]
  have hremoved : (olds.filter fun p => (find? news p.name).isNone) = [] := by
    apply List.filter_eq_nil_iff.mpr
    intro p hp
    simp [hfound p (hperm.mem_iff.mp hp)]
  have hadded : (news.filter fun p => (find? olds p.name).isNone) = [] := by
    apply List.filter_eq_nil_iff.mpr
    intro p hp
    obtain ⟨l,-,hfind,-⟩ := exists_find?_of_mem (hperm.mem_iff.mpr hp)
    simp [hfind]
  have hkept : (olds.flatMap fun p => ((find? news p.name).map (edits p)).getD []) = [] := by
    apply List.flatMap_eq_nil_iff.mpr
    intro p hp
    rw [hfound p (hperm.mem_iff.mp hp)]
    exact edits_eq_nil_iff.mpr ⟨rfl,rfl⟩
  rw [detectIn, hremoved, hadded, hkept]
  rfl

/-- What is looked up is an export, and its path is what it was looked up by. -/
theorem Module.Decoded.path_of_find? {m : Module} (hm : m.Decoded) {path : String}
    {d : Declaration} (h : Members.find? (.text path) m.exports = some d) :
    d.path = path ∧ path ∈ m.exportPaths := by
  obtain ⟨k,hk,hkey⟩ := Members.mem_of_find? h
  rw [hm.key_of_mem hk] at hkey
  obtain rfl : d.path = path := by simpa using hkey
  exact ⟨rfl,List.mem_map_of_mem hk⟩

namespace Diff

/-- Something is noticed in the comparison of two exports: a check finds something in them
or in a pair of members that is reached from them, or a member came or went there. -/
def Noticed (o n : Declaration) : Prop :=
  ∃ p q depth ancestors, Compared .standard o n p q depth ancestors ∧
    (¬Facts.Unnoticed TypeText.heuristic p.toFacts q.toFacts ∨
      Enters .standard p depth ancestors ∧ ¬SameKeys (comparedMembers (bothSigned p q) p.members)
        (comparedMembers (bothSigned p q) q.members))

section Exports

variable {old new : Module} (ho : old.Decoded) (hn : new.Decoded)
include ho hn

theorem lost_of_mem_removed {d : Declaration}
    (hd : d ∈ (matchMembers old.exports new.exports).removed) : d.path ∉ new.exportPaths := by
  have hlost : d.path ∈ old.exportPaths.filter (· ∉ new.exportPaths) :=
    removed_paths ho hn ▸ List.mem_map_of_mem hd
  simpa using (List.mem_filter.mp hlost).2

theorem gained_of_mem_added {d : Declaration}
    (hd : d ∈ (matchMembers old.exports new.exports).added) : d.path ∉ old.exportPaths := by
  have hgained : d.path ∈ new.exportPaths.filter (· ∉ old.exportPaths) :=
    added_paths ho hn ▸ List.mem_map_of_mem hd
  simpa using (List.mem_filter.mp hgained).2

/-- Of an export of both, two modules that were read are said to differ in what its pair
gives, and in nothing else. -/
theorem change_at_export_iff {options : DiffOptions} {oracle : TypeOracle} {cs : List Change}
    (h : (modules old new options oracle).result = .ok cs) {path : String} {o n : Declaration}
    (hold : Members.find? (.text path) old.exports = some o)
    (hnew : Members.find? (.text path) new.exports = some n) :
    (∃ c ∈ cs, c.path = .text path) ↔
    ∃ c, (modifiedChange options (typeComparer options oracle) (membersWithin options
      (typeComparer options oracle) options.maxDepth.toNat) .top o n).result = .ok (some c) := by
  have hlevel := modules_eq_ok.mp h
  obtain ⟨holdPath,hinOld⟩ := ho.path_of_find? hold
  obtain ⟨-,hinNew⟩ := hn.path_of_find? hnew
  constructor
  · rintro ⟨c,hc,hpath⟩
    rcases of_mem_level hlevel hc with ⟨r,hr,nested,-,rfl⟩ | ⟨d,hd,rfl⟩ | ⟨d,hd,rfl⟩ |
      ⟨p,q,hmatched,hok⟩
    · obtain rfl : r.old.path = path := by simpa [renamedWith] using hpath
      exact absurd hinNew (lost_of_mem_removed ho hn (Rename.joins_of_mem_detect hr).old_mem)
    · obtain rfl : d.path = path := by simpa [removedChange] using hpath
      exact absurd hinNew (lost_of_mem_removed ho hn hd)
    · obtain rfl : d.path = path := by simpa [addedChange] using hpath
      exact absurd hinOld (gained_of_mem_added ho hn hd)
    · obtain ⟨k,hk,hq⟩ := mem_matched_iff.mp hmatched
      obtain rfl : p.path = path := by simpa [path_of_modifiedChange hok] using hpath
      obtain rfl := ho.key_of_mem hk
      obtain rfl : p = o := Option.some.inj ((ho.wellKeyed.exports.find? hk).symm.trans hold)
      obtain rfl : q = n := Option.some.inj (hq.symm.trans hnew)
      exact ⟨c,hok⟩
  · rintro ⟨c,hc⟩
    exact ⟨c,mem_of_modifiedChange hlevel (mem_matched_of_find? hold hnew) hc,
      holdPath ▸ path_of_modifiedChange hc⟩

end Exports

/-- The order of type parameters is never noticed: whether an export whose type parameters
changed places is reported hangs on what else changed, and nothing that is told of any
export is that type parameters were reordered. -/
theorem reported_iff_of_typeParameters_perm {old new : Module} (ho : old.Decoded)
    (hn : new.Decoded) {path : String} {o n : Declaration}
    (hold : Members.find? (.text path) old.exports = some o)
    (hnew : Members.find? (.text path) new.exports = some n)
    (hnames : ((typeParametersOf o.toFacts).map (·.name)).Nodup)
    (hperm : (typeParametersOf o.toFacts).Perm (typeParametersOf n.toFacts)) :
    TypeParameterChange.detect o.toFacts n.toFacts = [] ∧
    ∃ cs, (modules old new .standard TypeText.heuristic).result = .ok cs ∧
      ((∃ c ∈ cs, c.path = .text path) ↔ Noticed o n) ∧
      ∀ c, Change.Within c cs → c.descriptor.effect = .reordered →
        c.descriptor.target = .parameter := by
  obtain ⟨cs,hcs⟩ := modules_ok (TypeText.heuristic_answers _) old new .standard
  have hreported := change_at_export_iff ho hn hcs hold hnew
  rw [typeComparer_heuristic, exists_modifiedChange_top_iff] at hreported
  exact ⟨TypeParameterChange.detectIn_of_perm hnames hperm,cs,hcs,hreported,
    ordersParameters_of_modules hcs⟩

def pairOf (names : List String) (deprecated : Bool) : Declaration :=
  let parameters : List TypeParameter := names.map fun name => ⟨name,none,none⟩
  let signature := "<" ++ ", ".intercalate names ++ ">(key: K, value: V) => [K, V]"
  { Declaration.bare .function "pair" "pair" [] with
    typeInfo := some ⟨signature,signature,[],[],[⟨[⟨"key","K",false,false,none⟩,
      ⟨"value","V",false,false,none⟩],"[K, V]",parameters,""⟩],[],[],parameters,none,none⟩
    metadata := some ⟨deprecated,none,none,none⟩ }

def pairModule (names : List String) (deprecated : Bool) : Module :=
  .ofExports [pairOf names deprecated] "<memory>" "" []

theorem decoded_pairModule (names : List String) (deprecated : Bool) :
    (pairModule names deprecated).Decoded := by
  have htrim : Text.trim "pair" = "pair" := by decide
  have hname : "pair" ≠ "" := by decide
  have hnone {P : Scalar × Declaration → Prop} : ∀ m ∈ (pairOf names deprecated).members, P m := by
    simp [pairOf, Declaration.bare]
  have hsettled : ∀ d ∈ (pairOf names deprecated).walk, d.Settled := by
    intro d hd
    rcases Declaration.mem_walk.mp hd with rfl | ⟨m,hm,-⟩
    · exact ⟨htrim,hname,hname,(Option.some_ne_none "").symm,Members.distinct_nil,hnone,hnone⟩
    · exact absurd hm List.not_mem_nil
  exact Module.decoded_ofExports (.cons (Declaration.decode_toValue hsettled none (Or.inr rfl)) .nil)
    (List.nodup_singleton _)

/-- Two type parameters change places, and nothing is told. -/
theorem modules_of_swapped_typeParameters :
    (pairModule ["K","V"] false).Decoded ∧ (pairModule ["V","K"] false).Decoded ∧
    Members.find? (.text "pair") (pairModule ["K","V"] false).exports =
      some (pairOf ["K","V"] false) ∧
    Members.find? (.text "pair") (pairModule ["V","K"] false).exports =
      some (pairOf ["V","K"] false) ∧
    (pairOf ["K","V"] false).kind = (pairOf ["V","K"] false).kind ∧
    ((typeParametersOf (pairOf ["K","V"] false).toFacts).map (·.name)).Nodup ∧
    (typeParametersOf (pairOf ["K","V"] false).toFacts).Perm
      (typeParametersOf (pairOf ["V","K"] false).toFacts) ∧
    typeParametersOf (pairOf ["K","V"] false).toFacts ≠
      typeParametersOf (pairOf ["V","K"] false).toFacts ∧
    (modules (pairModule ["K","V"] false) (pairModule ["V","K"] false) .standard
      TypeText.heuristic).result = .ok [] := by
  have hquiet : isQuiet (pairOf ["K","V"] false) (pairOf ["V","K"] false) = true := by
    decide +kernel
  refine ⟨decoded_pairModule _ _,decoded_pairModule _ _,rfl,rfl,rfl,by decide,by decide,by decide,?_⟩
  rw [modules_eq_ok, typeComparer_heuristic, level_eq_nil_iff]
  refine ⟨rfl,rfl,?_⟩
  intro p hp
  obtain rfl := List.mem_singleton.mp hp
  exact modifiedChange_of_isQuiet hquiet rfl

/-- They are passed over as well where something else is told. -/
theorem reported_of_deprecated_pair :
    (pairModule ["K","V"] false).Decoded ∧ (pairModule ["V","K"] true).Decoded ∧
    ((typeParametersOf (pairOf ["K","V"] false).toFacts).map (·.name)).Nodup ∧
    (typeParametersOf (pairOf ["K","V"] false).toFacts).Perm
      (typeParametersOf (pairOf ["V","K"] true).toFacts) ∧
    ∃ cs, (modules (pairModule ["K","V"] false) (pairModule ["V","K"] true) .standard
      TypeText.heuristic).result = .ok cs ∧ (∃ c ∈ cs, c.path = .text "pair") ∧
      ∀ c, Change.Within c cs → c.descriptor.effect = .reordered →
        c.descriptor.target = .parameter := by
  have ho := decoded_pairModule ["K","V"] false
  have hn := decoded_pairModule ["V","K"] true
  have hold : Members.find? (.text "pair") (pairModule ["K","V"] false).exports =
      some (pairOf ["K","V"] false) := rfl
  have hnew : Members.find? (.text "pair") (pairModule ["V","K"] true).exports =
      some (pairOf ["V","K"] true) := rfl
  have hnames : ((typeParametersOf (pairOf ["K","V"] false).toFacts).map (·.name)).Nodup := by decide
  have hperm : (typeParametersOf (pairOf ["K","V"] false).toFacts).Perm
      (typeParametersOf (pairOf ["V","K"] true).toFacts) := by decide
  obtain ⟨-,cs,hcs,hreported,hordered⟩ :=
    reported_iff_of_typeParameters_perm ho hn hold hnew hnames hperm
  have hdeprecated : ¬Facts.Unnoticed TypeText.heuristic (pairOf ["K","V"] false).toFacts
      (pairOf ["V","K"] true).toFacts := by
    intro h
    exact absurd h.deprecated (by decide)
  exact ⟨ho,hn,hnames,hperm,cs,hcs,hreported.mpr ⟨_,_,0,[],.itself,Or.inl hdeprecated⟩,hordered⟩

end Diff

end ApiRelease
