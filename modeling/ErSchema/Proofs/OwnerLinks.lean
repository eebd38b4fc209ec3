import ErSchema.Proofs.Connections
import ErSchema.Proofs.Reordered

/-! # The links from weak entities to their owners

A weak entity is connected to a weak relationship and an entity of another
identifier to the same one: whether that entity is an owner depends on the labels
at the two connections, so an entity that is no owner by one of its connections
may be one by another. Every pair is linked once, through the relationship of the
first connection of the weak entity that shows it. -/

namespace ErSchema

/-- Of groups whose members tell the group they are in, each group is what has its key. -/
theorem flatMap_eq_flatMap_filter {α β γ : Type} [DecidableEq γ] {key : β → γ} {name : α → γ}
    {groups : List α} (distinct : (groups.map name).Nodup) {members : α → List β}
    (told : ∀ group ∈ groups, ∀ member ∈ members group, key member = name group) :
    groups.flatMap members =
      groups.flatMap fun group =>
        (groups.flatMap members).filter fun member => key member = name group := by
  induction groups with
  | nil => rfl
  | cons group rest induction =>
      obtain ⟨apart, others⟩ := List.nodup_cons.mp distinct
      obtain ⟨toldFirst, toldRest⟩ := List.forall_mem_cons.mp told
      have toldLater : ∀ member ∈ rest.flatMap members, key member ∈ rest.map name := by
        intro member isMember
        obtain ⟨later, isLater, within⟩ := List.mem_flatMap.mp isMember
        exact toldRest later isLater member within ▸ List.mem_map_of_mem isLater
      have own : (members group).filter (fun member => key member = name group) =
          members group :=
        List.filter_eq_self.mpr fun member isMember => decide_eq_true (toldFirst member isMember)
      have foreign : (rest.flatMap members).filter (fun member => key member = name group) =
          [] := by
        apply List.filter_eq_nil_iff.mpr
        intro member isMember same
        exact apart (of_decide_eq_true same ▸ toldLater member isMember)
      have later : ∀ other ∈ rest,
          (members group).filter (fun member => key member = name other) = [] := by
        intro other isOther
        apply List.filter_eq_nil_iff.mpr
        intro member isMember same
        apply apart
        rw [← toldFirst member isMember, of_decide_eq_true same]
        exact List.mem_map_of_mem isOther
      rw [List.flatMap_cons, List.flatMap_cons, List.filter_append, own, foreign, List.append_nil]
      congr 1
      rw [induction others toldRest]
      apply List.flatMap_congr
      intro other isOther
      rw [← induction others toldRest, List.filter_append, later other isOther, List.nil_append]

/-- The connection drawn at that place shows the owner of the weak entity: it leads to
the relationship, and so does one of the owner, with labels at the two entities by which
the one may own the other. -/
structure Diagram.ShowsOwner (diagram : Diagram) (place : Nat)
    (weak owner relationship : Node) : Prop where
  isWeak : weak ∈ (Adjacency.ofDiagram diagram).nodes ∧ weak.isEntity = true ∧
    weak.isWeak = true
  isEntity : owner ∈ (Adjacency.ofDiagram diagram).nodes ∧ owner.isEntity = true ∧
    owner.id ≠ weak.id
  identifies : relationship ∈ (Adjacency.ofDiagram diagram).nodes ∧
    relationship.isRelationship = true ∧ relationship.isWeak = true
  connected : ∃ weakCard ownerCard,
    (∃ edge ∈ diagram.edges[place]?, ∃ card, edge.Runs weak.id weakCard relationship.id card) ∧
    (∃ edge ∈ diagram.edges, ∃ card, edge.Runs owner.id ownerCard relationship.id card) ∧
    isOwner weakCard owner ownerCard = true

namespace Adjacency

section
variable {diagram : Diagram}

theorem id_ne_of_kinds {entity relationship : Node} (isEntity : entity.isEntity = true)
    (isRelationship : relationship.isRelationship = true)
    (isNode : entity ∈ (ofDiagram diagram).nodes)
    (isOther : relationship ∈ (ofDiagram diagram).nodes) : entity.id ≠ relationship.id := by
  apply (wellFormed_ofDiagram diagram).id_ne_of_kind_ne isNode isOther
  rw [Node.kind_of_isEntity isEntity, Node.kind_of_isRelationship isRelationship]
  decide

theorem mem_weakEntities {index : Adjacency} {weak : Node} :
    weak ∈ index.weakEntities ↔
      weak ∈ index.nodes ∧ weak.isEntity = true ∧ weak.isWeak = true := by
  rw [weakEntities, List.mem_filter, Bool.and_eq_true]

theorem mem_ownersThrough {index : Adjacency} {weak : Node} {connection : Neighbor}
    {link : Ownership} :
    link ∈ index.ownersThrough weak connection ↔
      link.dependent = weak ∧ link.relationship = connection.node ∧
        ∃ other ∈ index.neighbors connection.node.id, other.node = link.owner ∧
          link.owner.isEntity = true ∧ link.owner.id ≠ weak.id ∧
          isOwner connection.ownCard link.owner other.card = true := by
  simp only [ownersThrough, entityNeighbors, List.mem_map, List.mem_filter, Bool.and_eq_true,
    decide_eq_true_eq, and_assoc]
  constructor
  · rintro ⟨other, isOther, isEntity, apart, owns, rfl⟩
    exact ⟨rfl, rfl, other, isOther, rfl, isEntity, apart, owns⟩
  · rintro ⟨dependent, through, other, isOther, same, isEntity, apart, owns⟩
    rcases link with ⟨_, owner, _⟩
    cases dependent
    cases through
    cases same
    exact ⟨other, isOther, isEntity, apart, owns, rfl⟩

/-- What shows an owner is what the search for owners goes through. -/
theorem showsOwner_iff {place : Nat} (link : Ownership) :
    diagram.ShowsOwner place link.dependent link.owner link.relationship ↔
      link.dependent ∈ (ofDiagram diagram).weakEntities ∧
        ∃ connection ∈ ((ofDiagram diagram).neighbors link.dependent.id).filter fun connection =>
          connection.node.isRelationship && connection.node.isWeak,
            connection.edge = place ∧
              link ∈ (ofDiagram diagram).ownersThrough link.dependent connection := by
  simp only [mem_weakEntities, mem_ownersThrough, List.mem_filter, Bool.and_eq_true,
    true_and]
  constructor
  · rintro ⟨isWeak, ⟨isNode, isEntity, apart⟩, ⟨isRelated, isRelationship, identifies⟩,
      weakCard, ownerCard, ⟨edge, drawn, card, runs⟩, ⟨ownerEdge, isEdge, far, ownerRuns⟩, owns⟩
    obtain ⟨ownerPlace, ownerDrawn⟩ := List.mem_iff_getElem?.mp isEdge
    have weakApart := id_ne_of_kinds isWeak.2.1 isRelationship isWeak.1 isRelated
    have ownerApart := id_ne_of_kinds isEntity isRelationship isNode isRelated
    have connected : ⟨place, link.relationship, weakCard, card⟩ ∈
        (ofDiagram diagram).neighbors link.dependent.id :=
      mem_neighbors_ofDiagram.mpr
        ⟨List.mem_map_of_mem isWeak.1, isRelated, weakApart, edge, drawn, runs⟩
    have participates : ⟨ownerPlace, link.owner, far, ownerCard⟩ ∈
        (ofDiagram diagram).neighbors link.relationship.id :=
      mem_neighbors_ofDiagram.mpr ⟨List.mem_map_of_mem isRelated, isNode, ownerApart.symm,
        ownerEdge, ownerDrawn, ownerRuns.symm⟩
    exact ⟨isWeak, _, ⟨connected, isRelationship, identifies⟩, rfl, rfl, _, participates,
      rfl, isEntity, apart, owns⟩
  · rintro ⟨isWeak, connection, ⟨connected, isRelationship, identifies⟩, rfl, through, other,
      participates, same, isEntity, apart, owns⟩
    obtain ⟨_, isRelated, _, edge, drawn, runs⟩ := mem_neighbors_ofDiagram.mp connected
    obtain ⟨_, isNode, _, ownerEdge, ownerDrawn, ownerRuns⟩ :=
      mem_neighbors_ofDiagram.mp participates
    rw [same] at isNode ownerRuns
    rw [← through] at isRelationship identifies isRelated runs ownerRuns
    exact ⟨isWeak, ⟨isNode, isEntity, apart⟩, ⟨isRelated, isRelationship, identifies⟩,
      _, _, ⟨edge, drawn, _, runs⟩,
      ⟨ownerEdge, List.mem_of_getElem? ownerDrawn, _, ownerRuns.symm⟩, owns⟩

/-- Each link was shown by the first connection that shows its owner. -/
theorem exists_first_showsOwner {link : Ownership}
    (isLink : link ∈ (ofDiagram diagram).ownerships) :
    ∃ place, diagram.ShowsOwner place link.dependent link.owner link.relationship ∧
      ∀ earlier < place, ∀ relationship,
        ¬ diagram.ShowsOwner earlier link.dependent link.owner relationship := by
  rw [(wellFormed_ofDiagram diagram).ownerships_eq_flatMap] at isLink
  obtain ⟨weak, isWeak, kept⟩ := List.mem_flatMap.mp isLink
  obtain ⟨before, connection, after, split, keptThere, unshown⟩ :=
    (mem_firstBy_flatMap _).mp kept
  have through := (firstBy_sublist _ _).subset keptThere
  obtain rfl : link.dependent = weak := (mem_ownersThrough.mp through).1
  have drawnInOrder : ((ofDiagram diagram).neighbors link.dependent.id).Pairwise fun earlier later =>
      earlier.edge < later.edge :=
    pairwise_neighbors link.dependent.id
  have inOrder := drawnInOrder.filter fun connection =>
    connection.node.isRelationship && connection.node.isWeak
  rw [split] at inOrder
  obtain ⟨_, later, _⟩ := List.pairwise_append.mp inOrder
  refine ⟨connection.edge, (showsOwner_iff link).mpr ⟨isWeak, connection, ?_, rfl, through⟩, ?_⟩
  · rw [split]
    exact List.mem_append_right _ List.mem_cons_self
  · intro earlier isEarlier relationship shows
    let other : Ownership := ⟨link.dependent, link.owner, relationship⟩
    obtain ⟨_, found, isFound, rfl, gives⟩ := (showsOwner_iff other).mp shows
    rw [split] at isFound
    rcases List.mem_append.mp isFound with early | here
    · exact unshown found early other gives rfl
    · rcases List.mem_cons.mp here with rfl | late
      · exact absurd isEarlier (lt_irrefl _)
      · exact absurd isEarlier (lt_asymm ((List.pairwise_cons.mp later).1 found late))

theorem exists_ownership_of_showsOwner {place : Nat} {weak owner relationship : Node}
    (shows : diagram.ShowsOwner place weak owner relationship) :
    ∃ link ∈ (ofDiagram diagram).ownerships, link.dependent = weak ∧ link.owner = owner := by
  have formed := wellFormed_ofDiagram diagram
  let shown : Ownership := ⟨weak, owner, relationship⟩
  obtain ⟨isWeak, connection, isConnection, _, gives⟩ := (showsOwner_iff shown).mp shows
  have listed : shown ∈ (ofDiagram diagram).weakEntities.flatMap (ofDiagram diagram).ownershipsOf :=
    List.mem_flatMap.mpr ⟨weak, isWeak, List.mem_flatMap.mpr ⟨connection, isConnection, gives⟩⟩
  obtain ⟨link, isLink, same⟩ := exists_mem_firstBy
    (fun link : Ownership => (link.dependent.id, link.owner.id)) listed
  obtain ⟨sameDependent, sameOwner⟩ := Prod.mk.inj same
  obtain ⟨isDependent, isOwner⟩ := formed.ends_of_mem_ownerships isLink
  refine ⟨link, isLink, ?_, ?_⟩
  · exact formed.eq_of_id_eq (mem_entities.mp isDependent).1 shows.isWeak.1 sameDependent
  · exact formed.eq_of_id_eq (mem_entities.mp isOwner).1 shows.isEntity.1 sameOwner

/-- The links are the pairs of a weak entity and an owner that is shown, each once, those of
one entity after those of the entities before it, and each through the relationship that
shows it first. -/
theorem ownerships_exact (diagram : Diagram) :
    let index := ofDiagram diagram
    (∀ weak owner, (∃ link ∈ index.ownerships, link.dependent = weak ∧ link.owner = owner) ↔
      ∃ place relationship, diagram.ShowsOwner place weak owner relationship) ∧
    (index.ownerships.map fun link => (link.dependent.id, link.owner.id)).Nodup ∧
    index.ownerships = index.weakEntities.flatMap (fun weak =>
      index.ownerships.filter fun link => link.dependent.id = weak.id) ∧
    ∀ link ∈ index.ownerships, ∃ place,
      diagram.ShowsOwner place link.dependent link.owner link.relationship ∧
        ∀ earlier < place, ∀ relationship,
          ¬ diagram.ShowsOwner earlier link.dependent link.owner relationship := by
  intro index
  have formed : index.WellFormed := wellFormed_ofDiagram diagram
  refine ⟨fun weak owner => ⟨?_, ?_⟩, List.pairwise_map.mpr (pairwise_firstBy _ _), ?_,
    fun link => exists_first_showsOwner⟩
  · rintro ⟨link, isLink, rfl, rfl⟩
    obtain ⟨place, shows, _⟩ := exists_first_showsOwner isLink
    exact ⟨place, link.relationship, shows⟩
  · rintro ⟨place, relationship, shows⟩
    exact exists_ownership_of_showsOwner shows
  · rw [formed.ownerships_eq_flatMap]
    apply flatMap_eq_flatMap_filter (formed.distinct.sublist (List.filter_sublist.map Node.id))
    intro weak _ link kept
    exact congrArg Node.id (mem_ownershipsOf ((firstBy_sublist _ _).subset kept)).1

end

end Adjacency

end ErSchema
