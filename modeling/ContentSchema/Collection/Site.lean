import ContentSchema.Collection.Registry
import ContentSchema.Schema.Fragments

/-!
# The site

The collections of the site in order of registration: the home page, projects, blog posts,
the listing pages that gather projects and posts, talks, the about page and products.
-/

namespace ContentSchema
namespace Site

open Schema (record listOf oneOf string number boolean date filledString)
open Schema.Fragment (button image author testimonial base baseFields)

def speakingCategories : List String := ["Live talk", "Podcast", "Conference"]

def filledMedia : Schema := filledString.withHint "input" "media"

/-!
## Schemas
-/

def indexFields : List (String × Schema) := [
  ("hero", record [("links", listOf button), ("images", listOf image)]),
  ("about", base),
  ("experience", record (baseFields ++ [
    ("items", listOf (record [
      ("date", date),
      ("position", string),
      ("company", record [
        ("name", string),
        ("url", string),
        ("logo", string.withHint "input" "icon"),
        ("color", string)])]))])),
  ("testimonials", listOf testimonial),
  ("blog", base),
  ("faq", record (baseFields ++ [
    ("categories", listOf (record [
      ("title", filledString),
      ("questions", listOf (record [
        ("label", filledString),
        ("content", filledString)]))]))]))]

def projectFields : List (String × Schema) := [
  ("title", filledString),
  ("description", filledString),
  ("image", filledMedia),
  ("url", filledString),
  ("tags", listOf string),
  ("date", date)]

def blogPostFields : List (String × Schema) := [
  ("minRead", number),
  ("date", date),
  ("image", filledMedia),
  ("author", author)]

def listingPageFields : List (String × Schema) := [("links", listOf button)]

def speakingFields : List (String × Schema) := [
  ("links", listOf button),
  ("events", listOf (record [
    ("category", oneOf speakingCategories),
    ("title", string),
    ("date", date),
    ("location", string),
    ("url", string.orAbsent)]))]

def aboutFields : List (String × Schema) := [
  ("content", record []),
  ("images", listOf image)]

def price : Schema := .primitive .fresh .number [.positive]

def productFields : List (String × Schema) := [
  ("price", price),
  ("originalPrice", price.orAbsent),
  ("image", filledMedia),
  ("gallery", (listOf image).orAbsent),
  ("category", filledString),
  ("tags", (listOf string).orAbsent),
  ("sku", filledString),
  ("inStock", boolean.orElse (.bool true)),
  ("featured", boolean.orElse (.bool false)),
  ("publishedAt", date),
  ("updatedAt", date.orAbsent),
  ("features", (listOf string).orAbsent),
  ("specifications", (record [
    ("dimensions", string.orAbsent),
    ("weight", string.orAbsent),
    ("material", string.orAbsent),
    ("color", string.orAbsent)]).orAbsent),
  ("cta", (record [
    ("label", string.orElse (.text "Add to Cart")),
    ("url", (Schema.primitive .fresh .string [.isUrl]).orAbsent),
    ("enabled", boolean.orElse (.bool true))]).orAbsent),
  ("seo", (record [
    ("title", string.orAbsent),
    ("description", string.orAbsent),
    ("keywords", (listOf string).orAbsent)]).orAbsent)]

def schemas : List (String × Schema) := [
  ("index", record indexFields),
  ("project", record projectFields),
  ("blog_post", record blogPostFields),
  ("listing_page", record listingPageFields),
  ("speaking", record speakingFields),
  ("about", record aboutFields),
  ("product", record productFields)]

/-!
## Table
-/

def collection (name : String) (kind : CollectionKind) (sources : List Selector)
    (fields : List (String × Schema)) : Descriptor :=
  ⟨name, kind, sources, ⟨.fresh, fields⟩⟩

def collections : List Descriptor := [
  collection "index" .page [.files "index.yml"] indexFields,
  collection "projects" .data [.files "projects/*.yml"] projectFields,
  collection "blog" .page [.files "blog/*.md"] blogPostFields,
  collection "pages" .page
    [.included "projects", .included "blog", .files "projects.yml", .files "blog.yml"]
    listingPageFields,
  collection "speaking" .page [.files "speaking.yml"] speakingFields,
  collection "about" .page [.files "about.yml"] aboutFields,
  collection "products" .page [.files "products/*.md"] productFields]

def buildRegistry : Journal Registry := do
  let (registry, journal) := Registry.empty.registerAll collections
  journal
  registry.freeze

def registry : Registry :=
  (Registry.empty.registerAll collections).1.frozen

end Site
end ContentSchema
