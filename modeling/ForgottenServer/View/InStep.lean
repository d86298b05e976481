import ForgottenServer.View.Window

/-! # The client keeps in step

Whatever steps the player takes, the client can read every message, its window is around the player, and it shows the
tiles of the map there. -/

namespace ForgottenServer.View
open ForgottenServer.World GapCoding

variable {T : Type}

/-! ## Messages about fields -/

theorem foldl_update_map (g : Field → Option T) (fields : List Field) : ∀ tiles : Field → Option T,
    (fields.zip (fields.map g)).foldl (fun tiles p => Function.update tiles p.1 p.2) tiles =
      fun field => if field ∈ fields then g field else tiles field := by
  induction fields with
  | nil => exact fun tiles => rfl
  | cons first fields ih =>
    intro tiles
    rw [List.map_cons, List.zip_cons_cons, List.foldl_cons, ih]
    funext field
    by_cases hmem : field ∈ fields
    · rw [if_pos hmem, if_pos (List.mem_cons_of_mem _ hmem)]
    · rw [if_neg hmem]
      by_cases hfirst : field = first
      · subst hfirst
        rw [Function.update_self, if_pos List.mem_cons_self]
      · rw [Function.update_of_ne hfirst, if_neg (by simp [hfirst, hmem])]

/-- The description of some fields tells what is on each of them. -/
theorem fill_encode (getTile : Position → Option T) (tiles : Field → Option T) (fields : List Field) :
    fill tiles fields (encode 0xFF none (fields.map fun field => getTile field.position)) =
      some fun field => if field ∈ fields then getTile field.position else tiles field := by
  have hreceived := receive_encode (show 0 < 0xFF by decide) (fields.map fun field => getTile field.position) []
  rw [List.append_nil, List.length_map] at hreceived
  unfold fill
  rw [hreceived]
  simp only [foldl_update_map]

namespace Client

/-- The window is around `c`, and the fields of it that `fresh` holds of are shown as they are. -/
structure Shows (getTile : Position → Option T) (fresh : Field → Prop) (client : Client T) (c : Field) : Prop where
  center : client.center = c
  tiles : ∀ field ∈ windowFields c, fresh field → client.tiles field = getTile field.position

/-- The client reads some messages, and shows the window around `c` then. -/
def Reaches (getTile : Position → Option T) (fresh : Field → Prop) (client : Client T) (messages : List (Message T))
    (c : Field) : Prop :=
  ∃ client', client.readAll messages = some client' ∧ client'.Shows getTile fresh c

variable {getTile : Position → Option T} {fresh : Field → Prop} {client : Client T} {c : Field}

theorem readAll_append (messages messages' : List (Message T)) : ∀ client : Client T,
    client.readAll (messages ++ messages') = (client.readAll messages).bind fun client => client.readAll messages' := by
  induction messages with
  | nil => exact fun client => rfl
  | cons message messages ih =>
    intro client
    rw [List.cons_append, readAll, readAll, Option.bind_assoc]
    exact congrArg _ (funext ih)

theorem Shows.reaches_nil (h : client.Shows getTile fresh c) : client.Reaches getTile fresh [] c := ⟨client, rfl, h⟩

theorem Reaches.append {messages messages' : List (Message T)} {c' : Field}
    (h : client.Reaches getTile fresh messages c)
    (hnext : ∀ client : Client T, client.Shows getTile fresh c → client.Reaches getTile fresh messages' c') :
    client.Reaches getTile fresh (messages ++ messages') c' := by
  obtain ⟨middle, hread, hshows⟩ := h
  obtain ⟨client', hread', hshows'⟩ := hnext middle hshows
  refine ⟨client', ?_, hshows'⟩
  rw [readAll_append, hread]
  exact hread'

theorem Reaches.cons {message : Message T} {messages : List (Message T)} {c' : Field}
    (h : client.Reaches getTile fresh [message] c)
    (hnext : ∀ client : Client T, client.Shows getTile fresh c → client.Reaches getTile fresh messages c') :
    client.Reaches getTile fresh (message :: messages) c' := h.append hnext

theorem reaches_single {message : Message T} {client' : Client T} {c' : Field} (hread : client.read message = some client')
    (h : client'.Shows getTile fresh c') : client.Reaches getTile fresh [message] c' :=
  ⟨client', by rw [readAll, hread]; rfl, h⟩

/-- The window moves, and what was not in it is told about. -/
theorem Shows.reaches_move (h : client.Shows getTile fresh c) {message : Message T} {c' : Field} (fields : List Field)
    (hread : client.read message =
      client.move c' fields (encode 0xFF none (fields.map fun field => getTile field.position)))
    (hcover : ∀ field ∈ windowFields c', field ∈ fields ∨ field ∈ windowFields c) :
    client.Reaches getTile fresh [message] c' := by
  rw [Client.move, fill_encode, Option.map_some] at hread
  refine reaches_single hread ⟨rfl, fun field hfield hfresh => ?_⟩
  by_cases hmem : field ∈ fields
  · exact if_pos hmem
  · exact (if_neg hmem).trans (h.tiles field ((hcover field hfield).resolve_left hmem) hfresh)

/-- The description of a window shows it, whatever was shown before. -/
theorem reaches_window (client : Client T) (getTile : Position → Option T) (fresh : Field → Prop) (pos : Position) :
    client.Reaches getTile fresh [.mapDescription pos (GetWindow getTile pos)] (fieldOf pos) := by
  have hread : client.read (.mapDescription pos (GetWindow getTile pos)) =
      (fill client.tiles (windowFields (fieldOf pos))
        (encode 0xFF none ((windowFields (fieldOf pos)).map fun field => getTile field.position))).map
          fun tiles => ⟨fieldOf pos, tiles⟩ := by
    rw [read, Client.move, GetWindow, GetMapDescription_eq]
    rfl
  rw [fill_encode, Option.map_some] at hread
  exact reaches_single hread ⟨rfl, fun field hfield _ => if_pos hfield⟩

/-! ## Rows and columns -/

theorem mem_windowFields {field : Field} :
    field ∈ windowFields c ↔ field.z ∈ mapFloors c.z ∧
      (c.x - 8 + (c.z - field.z) ≤ field.x ∧ field.x < c.x - 8 + (c.z - field.z) + 18) ∧
        c.y - 6 + (c.z - field.z) ≤ field.y ∧ field.y < c.y - 6 + (c.z - field.z) + 14 := mem_mapFields

theorem Shows.north (h : client.Shows getTile fresh c) {x y : Int} (hx : x = c.x - 8) (hy : y = c.y - 7) :
    client.Reaches getTile fresh [.mapNorth (GetMapDescription getTile x y c.z 18 1)] (c.shift 0 (-1) 0) := by
  subst hx hy
  have hrow : c.y + -1 - 6 = c.y - 7 := by omega
  refine h.reaches_move (mapFields (c.x - 8) (c.y - 7) c.z 18 1) ?_ fun field hfield => ?_
  · rw [read, h.center, GetMapDescription_eq]
    simp only [Field.shift, add_zero, hrow]
  · rw [mem_windowFields] at hfield ⊢
    rw [mem_mapFields]
    simp only [Field.shift, add_zero] at hfield
    obtain ⟨hz, hx, hy⟩ := hfield
    by_cases hnew : field.y = c.y - 7 + (c.z - field.z)
    · exact .inl ⟨hz, hx, by omega⟩
    · exact .inr ⟨hz, hx, by omega⟩

theorem Shows.east (h : client.Shows getTile fresh c) {x y : Int} (hx : x = c.x + 10) (hy : y = c.y - 6) :
    client.Reaches getTile fresh [.mapEast (GetMapDescription getTile x y c.z 1 14)] (c.shift 1 0 0) := by
  subst hx hy
  have hcolumn : c.x + 1 + 9 = c.x + 10 := by omega
  refine h.reaches_move (mapFields (c.x + 10) (c.y - 6) c.z 1 14) ?_ fun field hfield => ?_
  · rw [read, h.center, GetMapDescription_eq]
    simp only [Field.shift, add_zero, hcolumn]
  · rw [mem_windowFields] at hfield ⊢
    rw [mem_mapFields]
    simp only [Field.shift, add_zero] at hfield
    obtain ⟨hz, hx, hy⟩ := hfield
    by_cases hnew : field.x = c.x + 10 + (c.z - field.z)
    · exact .inl ⟨hz, by omega, by omega⟩
    · exact .inr ⟨hz, by omega, hy⟩

theorem Shows.south (h : client.Shows getTile fresh c) {x y : Int} (hx : x = c.x - 8) (hy : y = c.y + 8) :
    client.Reaches getTile fresh [.mapSouth (GetMapDescription getTile x y c.z 18 1)] (c.shift 0 1 0) := by
  subst hx hy
  have hrow : c.y + 1 + 7 = c.y + 8 := by omega
  refine h.reaches_move (mapFields (c.x - 8) (c.y + 8) c.z 18 1) ?_ fun field hfield => ?_
  · rw [read, h.center, GetMapDescription_eq]
    simp only [Field.shift, add_zero, hrow]
  · rw [mem_windowFields] at hfield ⊢
    rw [mem_mapFields]
    simp only [Field.shift, add_zero] at hfield
    obtain ⟨hz, hx, hy⟩ := hfield
    by_cases hnew : field.y = c.y + 8 + (c.z - field.z)
    · exact .inl ⟨hz, hx, by omega⟩
    · exact .inr ⟨hz, hx, by omega⟩

theorem Shows.west (h : client.Shows getTile fresh c) {x y : Int} (hx : x = c.x - 9) (hy : y = c.y - 6) :
    client.Reaches getTile fresh [.mapWest (GetMapDescription getTile x y c.z 1 14)] (c.shift (-1) 0 0) := by
  subst hx hy
  have hcolumn : c.x + -1 - 8 = c.x - 9 := by omega
  refine h.reaches_move (mapFields (c.x - 9) (c.y - 6) c.z 1 14) ?_ fun field hfield => ?_
  · rw [read, h.center, GetMapDescription_eq]
    simp only [Field.shift, add_zero, hcolumn]
  · rw [mem_windowFields] at hfield ⊢
    rw [mem_mapFields]
    simp only [Field.shift, add_zero] at hfield
    obtain ⟨hz, hx, hy⟩ := hfield
    by_cases hnew : field.x = c.x - 9 + (c.z - field.z)
    · exact .inl ⟨hz, by omega, by omega⟩
    · exact .inr ⟨hz, by omega, hy⟩

/-! ## Floors -/

theorem mem_floorsAbove {field : Field} (hfloor : c.z = 7 ∧ 0 ≤ field.z ∧ field.z ≤ 5 ∨ c.z > 7 ∧ field.z = c.z - 2)
    (hx : c.x - 8 + (c.z + 1 - field.z) ≤ field.x ∧ field.x < c.x - 8 + (c.z + 1 - field.z) + 18)
    (hy : c.y - 6 + (c.z + 1 - field.z) ≤ field.y ∧ field.y < c.y - 6 + (c.z + 1 - field.z) + 14) :
    field ∈ floorsAbove c := by
  unfold floorsAbove
  obtain ⟨hz, hlow, hhigh⟩ | ⟨hz, hnew⟩ := hfloor
  · rw [if_pos hz]
    refine List.mem_flatMap.mpr ⟨field.z, ?_, mem_floorFields.mpr ⟨rfl, by omega, by omega⟩⟩
    simp only [List.mem_cons, List.not_mem_nil, or_false]
    omega
  · rw [if_neg (by omega), if_pos hz]
    exact mem_floorFields.mpr ⟨hnew, by omega, by omega⟩

theorem mem_floorsBelow {field : Field}
    (hfloor : c.z = 8 ∧ 8 ≤ field.z ∧ field.z ≤ 10 ∨ (c.z > 8 ∧ c.z < 14) ∧ field.z = c.z + 2)
    (hx : c.x - 8 + (c.z - 1 - field.z) ≤ field.x ∧ field.x < c.x - 8 + (c.z - 1 - field.z) + 18)
    (hy : c.y - 6 + (c.z - 1 - field.z) ≤ field.y ∧ field.y < c.y - 6 + (c.z - 1 - field.z) + 14) :
    field ∈ floorsBelow c := by
  unfold floorsBelow
  obtain ⟨hz, hlow, hhigh⟩ | ⟨hz, hnew⟩ := hfloor
  · rw [if_pos hz]
    refine List.mem_flatMap.mpr ⟨field.z - c.z, ?_, mem_floorFields.mpr ⟨by omega, by omega, by omega⟩⟩
    simp only [List.mem_cons, List.not_mem_nil, or_false]
    omega
  · rw [if_neg (by omega), if_pos hz]
    exact mem_floorFields.mpr ⟨hnew, by omega, by omega⟩

/-- The floors that both windows have are where they were, as the middle moves with the floor. -/
theorem Shows.floorUp (h : client.Shows getTile fresh c) (hz : 1 ≤ c.z ∧ c.z ≤ 15) {pieces : List (Piece T)}
    (hpieces : pieces =
      encode 0xFF none ((floorsAbove (c.shift 0 0 (-1))).map fun field => getTile field.position)) :
    client.Reaches getTile fresh [.floorUp pieces] (c.shift 1 1 (-1)) := by
  refine h.reaches_move _ (by rw [read, h.center, hpieces]) fun field hfield => ?_
  rw [mem_windowFields] at hfield ⊢
  simp only [Field.shift] at hfield
  obtain ⟨hfloor, hx, hy⟩ := hfield
  rw [mem_mapFloors] at hfloor
  by_cases hold : field.z ∈ mapFloors c.z
  · exact .inr ⟨hold, by omega, by omega⟩
  · rw [mem_mapFloors] at hold
    refine .inl (mem_floorsAbove ?_ ?_ ?_) <;> simp only [Field.shift] <;> omega

theorem Shows.floorDown (h : client.Shows getTile fresh c) (hz : 0 ≤ c.z ∧ c.z ≤ 14) {pieces : List (Piece T)}
    (hpieces : pieces =
      encode 0xFF none ((floorsBelow (c.shift 0 0 1)).map fun field => getTile field.position)) :
    client.Reaches getTile fresh [.floorDown pieces] (c.shift (-1) (-1) 1) := by
  refine h.reaches_move _ (by rw [read, h.center, hpieces]) fun field hfield => ?_
  rw [mem_windowFields] at hfield ⊢
  simp only [Field.shift] at hfield
  obtain ⟨hfloor, hx, hy⟩ := hfield
  rw [mem_mapFloors] at hfloor
  by_cases hold : field.z ∈ mapFloors c.z
  · exact .inr ⟨hold, by omega, by omega⟩
  · rw [mem_mapFloors] at hold
    refine .inl (mem_floorsBelow ?_ ?_ ?_) <;> simp only [Field.shift] <;> omega

/-! ## Steps -/

theorem Reaches.to {messages : List (Message T)} {c' : Field} (h : client.Reaches getTile fresh messages c)
    (hx : c.x = c'.x) (hy : c.y = c'.y) (hz : c.z = c'.z) : client.Reaches getTile fresh messages c' := by
  have hc : c = c' := by
    obtain ⟨_, _, _⟩ := c'
    exact Field.mk.injEq .. ▸ ⟨hx, hy, hz⟩
  exact hc ▸ h

/-- The rows and the columns bring the window to the new position on its floor. -/
theorem Shows.strips {newPos oldPos : Position}
    (h : client.Shows getTile fresh ⟨oldPos.getX, oldPos.getY, newPos.getZ⟩)
    (hx : (newPos.getX - oldPos.getX).natAbs ≤ 1) (hy : (newPos.getY - oldPos.getY).natAbs ≤ 1) :
    client.Reaches getTile fresh (sendStrips getTile newPos oldPos) (fieldOf newPos) := by
  refine Reaches.append (c := ⟨oldPos.getX, newPos.getY, newPos.getZ⟩) ?_ fun client h => ?_
  · split
    next hnorth =>
      have hrow : newPos.getY - maxClientViewportY = oldPos.getY - 7 := by unfold maxClientViewportY; omega
      exact (h.north rfl hrow).to (Int.add_zero _) (by simp only [Field.shift]; omega) (Int.add_zero _)
    next hnorth =>
      split
      next hsouth =>
        have hrow : newPos.getY + (maxClientViewportY + 1) = oldPos.getY + 8 := by unfold maxClientViewportY; omega
        exact (h.south rfl hrow).to (Int.add_zero _) (by simp only [Field.shift]; omega) (Int.add_zero _)
      next hsouth => exact h.reaches_nil.to rfl (by simp only; omega) rfl
  · split
    next heast =>
      have hcolumn : newPos.getX + (maxClientViewportX + 1) = oldPos.getX + 10 := by unfold maxClientViewportX; omega
      exact (h.east hcolumn rfl).to (by simp only [Field.shift, fieldOf]; omega) (Int.add_zero _) (Int.add_zero _)
    next heast =>
      split
      next hwest =>
        have hcolumn : newPos.getX - maxClientViewportX = oldPos.getX - 9 := by unfold maxClientViewportX; omega
        exact (h.west hcolumn rfl).to (by simp only [Field.shift, fieldOf]; omega) (Int.add_zero _) (Int.add_zero _)
      next hwest => exact h.reaches_nil.to (by simp only [fieldOf]; omega) rfl rfl

theorem width_eq : maxClientViewportX * 2 + 2 = 18 := rfl

theorem height_eq : maxClientViewportY * 2 + 2 = 14 := rfl

theorem GetWindowFloor_eq (getTile : Position → Option T) (pos : Position) (nz offset : Int)
    (out : Int × List (Piece T)) : GetWindowFloor getTile pos nz offset out =
      (floorFields (pos.getX - 8) (pos.getY - 6) nz 18 14 offset).foldl (describeField getTile) out := by
  rw [GetWindowFloor, width_eq, height_eq]
  rfl

/-- Some floors of the window in one message. -/
theorem finish_GetWindowFloor (getTile : Position → Option T) (pos : Position) (floors : List Int) (nz offset : Int → Int) :
    finish (floors.foldl (fun out i => GetWindowFloor getTile pos (nz i) (offset i) out) (-1, [])) =
      encode 0xFF none ((floors.flatMap fun i =>
        floorFields (pos.getX - 8) (pos.getY - 6) (nz i) 18 14 (offset i)).map fun field => getTile field.position) := by
  simp only [GetWindowFloor_eq]
  exact finish_floors getTile floors fun i => floorFields (pos.getX - 8) (pos.getY - 6) (nz i) 18 14 (offset i)

theorem finish_GetWindowFloor_one (getTile : Position → Option T) (pos : Position) (nz offset : Int) :
    finish (GetWindowFloor getTile pos nz offset (-1, [])) =
      encode 0xFF none ((floorFields (pos.getX - 8) (pos.getY - 6) nz 18 14 offset).map fun field =>
        getTile field.position) := by
  have hfloor := finish_GetWindowFloor getTile pos [0] (fun _ => nz) fun _ => offset
  rwa [List.foldl_cons, List.foldl_nil, List.flatMap_singleton] at hfloor

/-- One floor up, still at the old place: the floors come into the window with a shift, that a column and a row undo. -/
theorem Shows.moveUp {newPos oldPos : Position} (h : client.Shows getTile fresh (fieldOf oldPos))
    (hz : newPos.getZ + 1 = oldPos.getZ) (hlow : oldPos.getZ ≤ 15) :
    client.Reaches getTile fresh (MoveUpCreature getTile newPos oldPos) ⟨oldPos.getX, oldPos.getY, newPos.getZ⟩ := by
  have hnonneg : 0 ≤ newPos.getZ := Int.natCast_nonneg _
  have hup : (fieldOf oldPos).shift 0 0 (-1) = ⟨oldPos.getX, oldPos.getY, newPos.getZ⟩ := by
    simp only [Field.shift, fieldOf, Field.mk.injEq]
    omega
  refine Reaches.cons (c := (fieldOf oldPos).shift 1 1 (-1)) ?_ fun client h => ?_
  · refine h.floorUp ⟨by simp only [fieldOf]; omega, hlow⟩ ?_
    rw [hup, floorsAbove]
    simp only
    split
    · exact finish_GetWindowFloor getTile oldPos [5, 4, 3, 2, 1, 0] id (8 - ·)
    · split
      · have hnew : oldPos.getZ - 3 = newPos.getZ - 2 := by omega
        rw [hnew, finish_GetWindowFloor_one]
      · rfl
  · refine Reaches.cons (c := (fieldOf oldPos).shift 0 1 (-1)) ?_ fun client h => ?_
    · have hz' : ((fieldOf oldPos).shift 1 1 (-1)).z = newPos.getZ := by simp only [Field.shift, fieldOf]; omega
      have hwest := h.west (x := oldPos.getX - maxClientViewportX) (y := oldPos.getY - (maxClientViewportY - 1))
        (by simp only [Field.shift, fieldOf, maxClientViewportX]; omega)
        (by simp only [Field.shift, fieldOf, maxClientViewportY]; omega)
      rw [hz'] at hwest
      exact hwest.to (by simp only [Field.shift]; omega) (by simp only [Field.shift]; omega)
        (by simp only [Field.shift]; omega)
    · have hz' : ((fieldOf oldPos).shift 0 1 (-1)).z = newPos.getZ := by simp only [Field.shift, fieldOf]; omega
      have hnorth := h.north (x := oldPos.getX - maxClientViewportX) (y := oldPos.getY - maxClientViewportY)
        (by simp only [Field.shift, fieldOf, maxClientViewportX]; omega)
        (by simp only [Field.shift, fieldOf, maxClientViewportY]; omega)
      rw [hz'] at hnorth
      exact hnorth.to (by simp only [Field.shift, fieldOf]; omega) (by simp only [Field.shift, fieldOf]; omega)
        (by simp only [Field.shift, fieldOf]; omega)

theorem Shows.moveDown {newPos oldPos : Position} (h : client.Shows getTile fresh (fieldOf oldPos))
    (hz : newPos.getZ = oldPos.getZ + 1) (hlow : newPos.getZ ≤ 15) :
    client.Reaches getTile fresh (MoveDownCreature getTile newPos oldPos) ⟨oldPos.getX, oldPos.getY, newPos.getZ⟩ := by
  have hnonneg : 0 ≤ oldPos.getZ := Int.natCast_nonneg _
  have hdown : (fieldOf oldPos).shift 0 0 1 = ⟨oldPos.getX, oldPos.getY, newPos.getZ⟩ := by
    simp only [Field.shift, fieldOf, Field.mk.injEq]
    omega
  refine Reaches.cons (c := (fieldOf oldPos).shift (-1) (-1) 1) ?_ fun client h => ?_
  · refine h.floorDown ⟨hnonneg, by simp only [fieldOf]; omega⟩ ?_
    rw [hdown, floorsBelow]
    simp only
    split
    · exact finish_GetWindowFloor getTile oldPos [0, 1, 2] (newPos.getZ + ·) (- · - 1)
    · by_cases hdeep : newPos.getZ > 8 ∧ newPos.getZ < 14
      · rw [if_pos ⟨by omega, hdeep⟩, if_pos hdeep, finish_GetWindowFloor_one]
      · rw [if_neg fun hall => hdeep hall.2, if_neg hdeep]
        rfl
  · refine Reaches.cons (c := (fieldOf oldPos).shift 0 (-1) 1) ?_ fun client h => ?_
    · have hz' : ((fieldOf oldPos).shift (-1) (-1) 1).z = newPos.getZ := by simp only [Field.shift, fieldOf]; omega
      have heast := h.east (x := oldPos.getX + (maxClientViewportX + 1)) (y := oldPos.getY - (maxClientViewportY + 1))
        (by simp only [Field.shift, fieldOf, maxClientViewportX]; omega)
        (by simp only [Field.shift, fieldOf, maxClientViewportY]; omega)
      rw [hz'] at heast
      exact heast.to (by simp only [Field.shift]; omega) (by simp only [Field.shift]; omega)
        (by simp only [Field.shift]; omega)
    · have hz' : ((fieldOf oldPos).shift 0 (-1) 1).z = newPos.getZ := by simp only [Field.shift, fieldOf]; omega
      have hsouth := h.south (x := oldPos.getX - maxClientViewportX) (y := oldPos.getY + (maxClientViewportY + 1))
        (by simp only [Field.shift, fieldOf, maxClientViewportX]; omega)
        (by simp only [Field.shift, fieldOf, maxClientViewportY]; omega)
      rw [hz'] at hsouth
      exact hsouth.to (by simp only [Field.shift, fieldOf]; omega) (by simp only [Field.shift, fieldOf]; omega)
        (by simp only [Field.shift, fieldOf]; omega)

/-! ## Moves -/

/-- Messages about things leave the window as it is. -/
theorem Shows.things (h : client.Shows getTile fresh c) {messages : List (Message T)}
    (hread : client.readAll messages = some client) : client.Reaches getTile fresh messages c := ⟨client, hread, h⟩

theorem readAll_RemoveTileThing (client : Client T) (pos : Position) (stackpos : Int) :
    client.readAll (RemoveTileThing pos stackpos) = some client := by
  unfold RemoveTileThing
  split <;> rfl

theorem readAll_sendRemoveTileThing (client : Client T) (myPos pos : Position) (stackpos : Int) :
    client.readAll (sendRemoveTileThing myPos pos stackpos) = some client := by
  unfold sendRemoveTileThing
  split
  · exact readAll_RemoveTileThing client pos stackpos
  · rfl

end Client

/-- A move that is no teleport goes at most one field in each direction. -/
def Move.Near (m : Move) : Prop :=
  m.teleport = false → (m.newPos.getX - m.oldPos.getX).natAbs ≤ 1 ∧ (m.newPos.getY - m.oldPos.getY).natAbs ≤ 1 ∧
    (m.newPos.getZ - m.oldPos.getZ).natAbs ≤ 1

/-- The floors of the map. -/
def Move.OnMap (m : Move) : Prop := m.oldPos.getZ ≤ 15 ∧ m.newPos.getZ ≤ 15

namespace Client

variable {getTile : Position → Option T} {fresh : Field → Prop} {client : Client T}

/-- A teleport is told as the whole window, whatever was shown before. -/
theorem reaches_teleport (client : Client T) (getTile : Position → Option T) (fresh : Field → Prop) (isOTC : Bool)
    {m : Move} (hfull : (m.teleport || m.oldStackPos ≥ MAX_STACKPOS_THINGS) = true) :
    client.Reaches getTile fresh (View.sendMoveCreature getTile isOTC m) (fieldOf m.newPos) := by
  obtain ⟨client', hread, hshows⟩ := reaches_window client getTile fresh m.newPos
  refine ⟨client', ?_, hshows⟩
  rw [View.sendMoveCreature, if_pos hfull, readAll_append, readAll_sendRemoveTileThing]
  exact hread

/-- Whatever way a move is told, the client shows the window at the new position after it. -/
theorem Shows.sendMoveCreature {m : Move} (isOTC : Bool) (h : client.Shows getTile fresh (fieldOf m.oldPos))
    (hnear : m.Near) (hmap : m.OnMap) :
    client.Reaches getTile fresh (View.sendMoveCreature getTile isOTC m) (fieldOf m.newPos) := by
  by_cases hfull : (m.teleport || m.oldStackPos ≥ MAX_STACKPOS_THINGS) = true
  · exact reaches_teleport client getTile fresh isOTC hfull
  rw [View.sendMoveCreature, if_neg hfull]
  rw [Bool.not_eq_true, Bool.or_eq_false_iff] at hfull
  obtain ⟨hx, hy, hz⟩ := hnear hfull.1
  obtain ⟨hold, hnew⟩ := hmap
  refine Reaches.append (c := ⟨m.oldPos.getX, m.oldPos.getY, m.newPos.getZ⟩)
    (Reaches.append (c := fieldOf m.oldPos) (h.things ?_) fun client h => ?_) fun client h => ?_
  · split
    · exact readAll_RemoveTileThing client m.oldPos m.oldStackPos
    · rfl
  · split
    · exact h.moveDown (by omega) hnew
    · split
      · exact h.moveUp (by omega) hold
      · exact h.reaches_nil.to rfl rfl (by simp only [fieldOf]; omega)
  · split
    · exact reaches_window client getTile fresh m.newPos
    · exact h.strips hx hy

/-- The moves of a player who is at a position. -/
def Moves : Position → List Move → Prop
  | _, [] => True
  | pos, m :: moves => m.oldPos = pos ∧ m.Near ∧ m.OnMap ∧ Moves m.newPos moves

def lastPos (pos : Position) (moves : List Move) : Position := moves.foldl (fun _ m => m.newPos) pos

theorem Shows.moves (isOTC : Bool) (moves : List Move) : ∀ {client : Client T} {pos : Position},
    client.Shows getTile fresh (fieldOf pos) → Moves pos moves →
      client.Reaches getTile fresh (moves.flatMap (View.sendMoveCreature getTile isOTC)) (fieldOf (lastPos pos moves)) := by
  induction moves with
  | nil => exact fun h _ => h.reaches_nil
  | cons m moves ih =>
    intro client pos h hmoves
    obtain ⟨hpos, hnear, hmap, hrest⟩ := hmoves
    rw [← hpos] at h
    exact Reaches.append (h.sendMoveCreature isOTC hnear hmap) fun client h => ih h hrest

/-- A client that got the map once is never lost and never out of step: after any moves of the player, over floors and
with teleports, it has read every message to its end, its window is around the player, and it shows on every field of
the window the tile that the map has there. -/
theorem readAll_moves (getTile : Position → Option T) (isOTC : Bool) (client : Client T) (pos : Position)
    (moves : List Move) (h : Moves pos moves) : ∃ client' : Client T,
      client.readAll (sendMapDescription getTile pos ++ moves.flatMap (View.sendMoveCreature getTile isOTC)) =
        some client' ∧
      client'.center = fieldOf (lastPos pos moves) ∧
      ∀ field ∈ windowFields (fieldOf (lastPos pos moves)), client'.tiles field = getTile field.position := by
  obtain ⟨client', hread, hshows⟩ := Reaches.append (reaches_window client getTile (fun _ => True) pos)
    fun client hshows => hshows.moves isOTC moves h
  exact ⟨client', hread, hshows.center, fun field hfield => hshows.tiles field hfield trivial⟩

/-- From the surface one step to the south-east and down, and then far away. -/
def descent : List Move :=
  [⟨⟨101, 101, 8⟩, 1, ⟨100, 100, 7⟩, 1, false⟩, ⟨⟨500, 20, 3⟩, 2, ⟨101, 101, 8⟩, 1, true⟩]

theorem readAll_descent : ∃ client' : Client Nat,
    (⟨⟨0, 0, 0⟩, fun _ => none⟩ : Client Nat).readAll
        (sendMapDescription (fun pos => some pos.x.toNat) ⟨100, 100, 7⟩ ++
          descent.flatMap (View.sendMoveCreature (fun pos => some pos.x.toNat) false)) = some client' ∧
      client'.center = fieldOf (lastPos ⟨100, 100, 7⟩ descent) ∧
      ∀ field ∈ windowFields (fieldOf (lastPos ⟨100, 100, 7⟩ descent)),
        client'.tiles field = some field.position.x.toNat :=
  readAll_moves (fun pos => some pos.x.toNat) false _ ⟨100, 100, 7⟩ descent
    ⟨rfl, fun _ => by decide, ⟨by decide, by decide⟩, rfl, (fun h => by cases h),
      ⟨by decide, by decide⟩, trivial⟩

end Client

end ForgottenServer.View
