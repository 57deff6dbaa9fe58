import Vetting.Wire.Form

/-!
What the core service knows about a tenant: the subscription to a product, the quota left on it and
the grades that scores are given in.
-/

namespace Vetting

open Wire

structure ProductInfo where
  group : UInt64
  slug : String
  name : String
  deriving DecidableEq, Repr, Inhabited

structure Subscription where
  id : UInt64
  productId : UInt64
  product : ProductInfo
  deriving DecidableEq, Repr, Inhabited

/-- Whose quota is asked for. -/
structure QuotaQuery where
  member : UInt64
  company : UInt64
  subscription : UInt64
  quotaType : String
  deriving DecidableEq, Repr

structure Quota where
  quota : Int64
  deriving DecidableEq

structure Grade where
  id : UInt64
  grade : String
  start : Double
  stop : Double
  deriving DecidableEq, Repr

/-- The member on whose behalf listings are read. -/
structure Scope where
  member : UInt64
  company : UInt64
  tier : UInt64
  deriving DecidableEq, Repr

instance : Form ProductInfo where
  shape := .record "ProductInfo" (.opt "product_group_id" word64 (.opt "slug" text
    (.opt "name" text .nil)))
  ofVal := fun (group, slug, name, ()) => ⟨group, slug, name⟩
  toVal p := (p.group, p.slug, p.name, ())

instance : Form Subscription where
  shape := .record "SubscribedProduct" (.cons "subscribed_product_id" ["id"] word64 .refused false
    (.req "product_id" word64 (.req "product" (Form.shape ProductInfo) .nil)))
  ofVal := fun (id, productId, product, ()) => ⟨id, productId, Form.ofVal product⟩
  toVal s := (s.id, s.productId, Form.toVal s.product, ())

instance : Form Quota where
  shape := .record "Quota" (.req "quota" int64 .nil)
  ofVal := fun (quota, ()) => ⟨quota⟩
  toVal q := (q.quota, ())

instance : Form Grade where
  shape := .record "Grade" (.opt "id" word64 (.req "grade" text (.opt "start" double
    (.opt "end" double .nil))))
  ofVal := fun (id, grade, start, stop, ()) => ⟨id, grade, start, stop⟩
  toVal g := (g.id, g.grade, g.start, g.stop, ())

end Vetting
