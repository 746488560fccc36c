import RoleQuery.Catalog.Basic

/-!
# A library

The catalog that examples speak of: books with boxes and reviews inside them, their authors,
and the loans of each book. Anyone may read all of it but the wages of the authors. A ship
with a berth inside it stands for the documents that are in no library.
-/
namespace RoleQuery.Examples

def author : Entity :=
  .ofFields "Author" "authors" .relational
    [⟨"id", "id", true, .scalar⟩, ⟨"name", "full_name", false, .scalar⟩,
      ⟨"wage", "wage", false, .scalar⟩]

def loan : Entity :=
  .ofFields "Loan" "loans" .relational
    [⟨"id", "id", true, .scalar⟩, ⟨"days", "days", false, .scalar⟩]

/-- Books, of whose boxes and reviews the catalog knows nothing. -/
def book : Entity :=
  { Entity.ofFields "Book" "books" .relational
      [⟨"id", "id", true, .scalar⟩, ⟨"title", "book_title", false, .scalar⟩,
        ⟨"year", "publication_year", false, .scalar⟩,
        ⟨"publisher", "publisher_id", false, .scalar⟩, ⟨"box", "box", false, .object "Box"⟩,
        ⟨"reviews", "reviews", false, .list "Review"⟩] with
    relationships := [⟨"author", "Author", .one, ["author_id"], ["id"]⟩,
      ⟨"loans", "Loan", .many, ["id"], ["book_id"]⟩] }

def library : Catalog :=
  ((((Catalog.empty .default).addEntity book).addEntity author).addEntity loan).withPermissions
    (((PermissionTable.empty.grant "Book" anonymousRole .read ⟨.all, .empty, none⟩).grant "Author"
      anonymousRole .read ⟨.all, .ofList ["wage"], none⟩).grant "Loan" anonymousRole .read
        ⟨.all, .empty, none⟩)

def mooredShip : Entity :=
  .ofFields "Ship" "ships" .relational
    [⟨"id", "id", true, .scalar⟩, ⟨"home", "home", false, .object "Berth"⟩]

end RoleQuery.Examples
