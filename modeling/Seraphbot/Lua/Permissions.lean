import Mathlib.Order.MinMax
import Seraphbot.Lua.Metadata

/-!
# Permissions as a comparison of ranks

The roles of a chat are nested: a moderator may do what a VIP may do, and a VIP
what a subscriber may do.  The source says so three times, in three lists of
badges written out by hand, and a command says with three independent flags which
of them it asks for.

Here both sides become elements of one linear order.  `rank` is the highest rank
that a list of badges gives, `strictness` the highest rank that a set of flags
asks for, and `hasPermission_iff` says that the checks of the source compare the
two.  That permissions are monotone, and that nothing but the rank matters, are
then facts about an order.
-/

namespace Seraphbot

/-! ## Ranks -/

/-- The roles that a command can be restricted to, in ascending order. -/
inductive Rank where
  | everyone
  | subscriber
  | vip
  | moderator
deriving DecidableEq

namespace Rank

def toNat : Rank → Nat
  | .everyone => 0
  | .subscriber => 1
  | .vip => 2
  | .moderator => 3

theorem toNat_injective : Function.Injective toNat := by
  intro a b h
  cases a <;> cases b <;> first | rfl | cases h

instance : LinearOrder Rank := LinearOrder.lift' toNat toNat_injective

theorem everyone_le (r : Rank) : everyone ≤ r := Nat.zero_le r.toNat

theorem le_everyone {r : Rank} : r ≤ everyone ↔ r = everyone :=
  ⟨fun h ↦ le_antisymm h (everyone_le r), fun h ↦ h.le⟩

end Rank

/-- The badges that give a rank. -/
def rankBadges : List Bytes :=
  [bytes "broadcaster", bytes "moderator", bytes "vip", bytes "subscriber"]

/-- The rank that one badge gives. -/
def badgeRank (badge : Bytes) : Rank :=
  if badge = bytes "moderator" ∨ badge = bytes "broadcaster" then .moderator
  else if badge = bytes "vip" then .vip
  else if badge = bytes "subscriber" then .subscriber
  else .everyone

/-- The highest rank that a list of badges gives. -/
def rank (badges : List Bytes) : Rank := (badges.map badgeRank).foldr max .everyone

theorem le_rank_iff {r : Rank} {badges : List Bytes} :
    r ≤ rank badges ↔ r = .everyone ∨ ∃ badge ∈ badges, r ≤ badgeRank badge := by
  induction badges with
  | nil => simpa [rank] using Rank.le_everyone
  | cons badge badges ih =>
      have hcons : rank (badge :: badges) = max (badgeRank badge) (rank badges) := rfl
      rw [hcons, le_max_iff, ih]
      simp only [List.mem_cons, exists_eq_or_imp]
      exact or_left_comm

theorem mem_rankBadges_of_lt {badge : Bytes} (h : badgeRank badge ≠ .everyone) :
    badge ∈ rankBadges := by
  unfold badgeRank at h
  split_ifs at h with hmod hvip hsub
  · rcases hmod with rfl | rfl <;> simp [rankBadges]
  · simp [rankBadges, hvip]
  · simp [rankBadges, hsub]
  · exact absurd rfl h

/-- Only the badges that give a rank count. -/
theorem rank_mono {a b : List Bytes} (h : ∀ badge ∈ rankBadges, badge ∈ a → badge ∈ b) :
    rank a ≤ rank b := by
  rcases le_rank_iff.mp (le_refl (rank a)) with heq | ⟨badge, hmem, hle⟩
  · rw [heq]
    exact Rank.everyone_le _
  · by_cases hnone : badgeRank badge = .everyone
    · rw [hnone, Rank.le_everyone] at hle
      rw [hle]
      exact Rank.everyone_le _
    · have hb := h badge (mem_rankBadges_of_lt hnone) hmem
      exact le_rank_iff.mpr (Or.inr ⟨badge, hb, hle⟩)

/-! ## The checks of the source -/

/-- The hand-written list of badges of a role is the list of those that give at
least its rank. -/
theorem le_badgeRank_iff (badge : Bytes) :
    (.moderator ≤ badgeRank badge ↔
      badge = bytes "moderator" ∨ badge = bytes "broadcaster") ∧
    (.vip ≤ badgeRank badge ↔
      badge = bytes "vip" ∨ badge = bytes "moderator" ∨ badge = bytes "broadcaster") ∧
    (.subscriber ≤ badgeRank badge ↔
      badge = bytes "subscriber" ∨ badge = bytes "vip" ∨ badge = bytes "moderator" ∨
        badge = bytes "broadcaster") := by
  unfold badgeRank
  split_ifs with hmod hvip hsub
  · rcases hmod with rfl | rfl <;> decide
  · rw [hvip]
    decide
  · rw [hsub]
    decide
  · simp only [hmod, hvip, hsub, or_false]
    decide

namespace CommandContext

variable (ctx : CommandContext)

theorem isModerator_iff : ctx.isModerator = true ↔ .moderator ≤ rank ctx.message.badges := by
  rw [le_rank_iff]
  simp [isModerator, (le_badgeRank_iff _).1]

theorem isVip_iff : ctx.isVip = true ↔ .vip ≤ rank ctx.message.badges := by
  rw [le_rank_iff]
  simp [isVip, (le_badgeRank_iff _).2.1, or_assoc]

theorem isSubscriber_iff : ctx.isSubscriber = true ↔ .subscriber ≤ rank ctx.message.badges := by
  rw [le_rank_iff]
  simp [isSubscriber, (le_badgeRank_iff _).2.2, or_assoc]

end CommandContext

/-- The rank that the strictest flag of a command asks for. -/
def CommandMetadata.strictness (m : CommandMetadata) : Rank :=
  if m.modOnly then .moderator
  else if m.vipOnly then .vip
  else if m.subscriberOnly then .subscriber
  else .everyone

/-- A command asks for at least the rank of each of its flags, and for no more. -/
theorem CommandMetadata.strictness_le_iff {m : CommandMetadata} {r : Rank} :
    m.strictness ≤ r ↔
      (m.modOnly = true → .moderator ≤ r) ∧ (m.vipOnly = true → .vip ≤ r) ∧
        (m.subscriberOnly = true → .subscriber ≤ r) := by
  unfold strictness
  cases m.modOnly <;> cases m.vipOnly <;> cases m.subscriberOnly <;> cases r <;> decide

namespace LuaCommandEngine

/-- A user may use a command if they are on its list, or have the rank that its
strictest flag asks for. -/
theorem hasPermission_iff (ctx : CommandContext) (m : CommandMetadata) :
    hasPermission ctx m = true ↔
      ctx.message.user ∈ m.allowedUsers ∨ m.strictness ≤ rank ctx.message.badges := by
  rw [CommandMetadata.strictness_le_iff, ← ctx.isModerator_iff, ← ctx.isVip_iff,
    ← ctx.isSubscriber_iff]
  have hlisted : (m.allowedUsers ≠ [] && m.allowedUsers.contains ctx.message.user) = true ↔
      ctx.message.user ∈ m.allowedUsers := by
    rw [Bool.and_eq_true, List.contains_iff_mem, decide_eq_true_eq]
    exact and_iff_right_of_imp List.ne_nil_of_mem
  unfold hasPermission
  by_cases hmem : ctx.message.user ∈ m.allowedUsers
  · rw [if_pos (hlisted.mpr hmem)]
    simp [hmem]
  · rw [if_neg (mt hlisted.mp hmem)]
    split_ifs with hmod hvip hsub <;> simp_all

/-- **Permissions are monotone and depend only on rank.**  For messages of the same
user: more badges never take a permission away; only which of the four badges that
give a rank are there matters, and nothing else in the message; and who may use a
command may use every command with the same list of users that is not stricter. -/
theorem permissions_by_rank :
    (∀ (m : CommandMetadata) (a b : CommandContext), a.message.user = b.message.user →
      (∀ badge ∈ a.message.badges, badge ∈ b.message.badges) →
      hasPermission a m = true → hasPermission b m = true) ∧
    (∀ (m : CommandMetadata) (a b : CommandContext), a.message.user = b.message.user →
      (∀ badge ∈ rankBadges, badge ∈ a.message.badges ↔ badge ∈ b.message.badges) →
      hasPermission a m = hasPermission b m) ∧
    ∀ (m m' : CommandMetadata) (a : CommandContext), m.allowedUsers = m'.allowedUsers →
      m.strictness ≤ m'.strictness → hasPermission a m' = true → hasPermission a m = true := by
  refine ⟨?_, ?_, ?_⟩
  · intro m a b huser hbadges ha
    rw [hasPermission_iff] at ha ⊢
    rw [← huser]
    exact ha.imp_right fun hrank ↦ hrank.trans (rank_mono fun badge _ ↦ hbadges badge)
  · intro m a b huser hbadges
    have hrank : rank a.message.badges = rank b.message.badges :=
      le_antisymm (rank_mono fun badge hb ↦ (hbadges badge hb).mp)
        (rank_mono fun badge hb ↦ (hbadges badge hb).mpr)
    rw [Bool.eq_iff_iff, hasPermission_iff, hasPermission_iff, huser, hrank]
  · intro m m' a husers hstrict ha
    rw [hasPermission_iff] at ha ⊢
    rw [husers]
    exact ha.imp_right hstrict.trans

end LuaCommandEngine

end Seraphbot
